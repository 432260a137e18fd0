import Mathlib.Data.List.Perm.Basic
import SpriteScript.Diagnostic
import SpriteScript.Proofs.Repeats

-- Reports keep everything that is added to them, and nothing twice.
namespace SpriteScript

namespace Diagnostic

-- Two reports that say the same, be it with another code.
def same (a b : Diagnostic) : Bool := a.identity == b.identity

theorem same_iff {a b : Diagnostic} : a.same b = true ↔ a.identity = b.identity := beq_iff_eq

theorem same_comm (a b : Diagnostic) : a.same b = b.same a := BEq.comm

theorem file_eq_of_same {a b : Diagnostic} (h : a.same b = true) : a.file = b.file :=
  congrArg Prod.fst (same_iff.mp h)

end Diagnostic

namespace Report

variable {r : Report} {d d' : Diagnostic} {ds : List Diagnostic}

-- What was seen is what the report holds.
structure Faithful (r : Report) : Prop where
  seen : ∀ key, r.seen.contains key = true ↔ ∃ d ∈ r.diagnostics.toList, d.identity = key
  nodup : (r.diagnostics.toList.map Diagnostic.identity).Nodup

theorem faithful_empty : Faithful {} where
  seen := by simp
  nodup := .nil

theorem Faithful.add (h : r.Faithful) (d : Diagnostic) : (r.add d).Faithful := by
  unfold Report.add
  split
  case isTrue => exact h
  case isFalse hnew =>
    constructor
    · intro key
      rw [Std.HashSet.contains_insert, Bool.or_eq_true, h.seen, beq_iff_eq, Array.toList_push]
      simp only [List.mem_append, List.mem_singleton]
      constructor
      · rintro (rfl | ⟨d', hmem, rfl⟩)
        · exact ⟨d, .inr rfl, rfl⟩
        · exact ⟨d', .inl hmem, rfl⟩
      · rintro ⟨d', hmem | rfl, rfl⟩
        · exact .inr ⟨d', hmem, rfl⟩
        · exact .inl rfl
    · rw [Array.toList_push, List.map_append, List.nodup_append']
      refine ⟨h.nodup, List.nodup_singleton _, fun key hkey hd => hnew ?_⟩
      rw [← List.mem_singleton.mp hd, h.seen]
      exact List.mem_map.mp hkey

def addAll (r : Report) (ds : List Diagnostic) : Report := ds.foldl add r

theorem Faithful.addAll (h : r.Faithful) (ds : List Diagnostic) : (r.addAll ds).Faithful := by
  induction ds generalizing r with
  | nil => exact h
  | cons d ds ih => exact ih (h.add d)

theorem mem_add (h : d' ∈ (r.add d).diagnostics.toList) : d' ∈ r.diagnostics.toList ∨ d' = d := by
  unfold Report.add at h
  split at h
  · exact .inl h
  · rwa [Array.toList_push, List.mem_append, List.mem_singleton] at h

theorem mem_addAll (h : d ∈ (r.addAll ds).diagnostics.toList) : d ∈ r.diagnostics.toList ∨ d ∈ ds := by
  induction ds generalizing r with
  | nil => exact .inl h
  | cons d' ds ih =>
      rcases ih h with hmem | hmem
      · rcases mem_add hmem with hmem | rfl
        · exact .inl hmem
        · exact .inr List.mem_cons_self
      · exact .inr (List.mem_cons_of_mem d' hmem)

theorem subset_add (r : Report) (d : Diagnostic) : r.diagnostics.toList ⊆ (r.add d).diagnostics.toList := by
  unfold Report.add
  split
  · exact fun _ h => h
  · rw [Array.toList_push]
    exact List.subset_append_left ..

theorem subset_addAll (r : Report) (ds : List Diagnostic) :
    r.diagnostics.toList ⊆ (r.addAll ds).diagnostics.toList := by
  induction ds generalizing r with
  | nil => exact fun _ h => h
  | cons d ds ih => exact List.Subset.trans (subset_add r d) (ih (r.add d))

-- What is added is there in the end, or something that says the same.
theorem exists_mem_add (h : r.Faithful) (d : Diagnostic) :
    ∃ d' ∈ (r.add d).diagnostics.toList, d'.identity = d.identity := by
  unfold Report.add
  split
  case isTrue hseen => exact (h.seen _).mp hseen
  case isFalse => exact ⟨d, by simp, rfl⟩

theorem exists_mem_addAll (h : r.Faithful) (hd : d ∈ ds) :
    ∃ d' ∈ (r.addAll ds).diagnostics.toList, d'.identity = d.identity := by
  induction ds generalizing r with
  | nil => cases hd
  | cons d' ds ih =>
      rcases List.mem_cons.mp hd with rfl | hd
      · obtain ⟨found, hmem, heq⟩ := exists_mem_add h d
        exact ⟨found, subset_addAll _ ds hmem, heq⟩
      · exact ih (h.add d') hd

-- A report without repeats that holds reports of one kind only.
structure Holds (r : Report) (P : Diagnostic → Prop) : Prop where
  faithful : r.Faithful
  all : ∀ d ∈ r.diagnostics.toList, P d

theorem holds_empty {P : Diagnostic → Prop} : Holds {} P := ⟨faithful_empty, List.forall_mem_nil _⟩

theorem Holds.add {P : Diagnostic → Prop} (h : r.Holds P) (hd : P d) : (r.add d).Holds P where
  faithful := h.faithful.add d
  all d' hd' := by
    rcases mem_add hd' with hold | rfl
    · exact h.all d' hold
    · exact hd

theorem Holds.foldl {α : Type} {P : Diagnostic → Prop} {f : Report → α → Report} {l : List α} (h : r.Holds P)
    (hf : ∀ x ∈ l, ∀ r : Report, r.Holds P → (f r x).Holds P) : (l.foldl f r).Holds P := by
  induction l generalizing r with
  | nil => exact h
  | cons x rest ih =>
      exact ih (hf x List.mem_cons_self r h) fun y hy => hf y (List.mem_cons_of_mem x hy)

theorem Holds.mono {P Q : Diagnostic → Prop} (h : r.Holds P) (hPQ : ∀ d, P d → Q d) : r.Holds Q :=
  ⟨h.faithful, fun d hd => hPQ d (h.all d hd)⟩

theorem byFile_perm (r : Report) : r.byFile.Perm r.diagnostics.toList := List.mergeSort_perm ..

theorem mem_byFile : d ∈ r.byFile ↔ d ∈ r.diagnostics.toList := r.byFile_perm.mem_iff

theorem Faithful.nodup_byFile (h : r.Faithful) : r.byFile.Nodup :=
  r.byFile_perm.nodup_iff.mpr (.of_map _ h.nodup)

theorem seen_add (hnew : r.isNew d = true) (x : Diagnostic) :
    (r.add d).isNew x = (r.isNew x && !(d.identity == x.identity)) := by
  unfold isNew at hnew ⊢
  unfold add
  rw [if_neg (by simpa using hnew), Std.HashSet.contains_insert, Bool.not_or, Bool.and_comm]

-- What is added are the reports that are new, each where it came first.
theorem toList_addAll (r : Report) (ds : List Diagnostic) :
    (r.addAll ds).diagnostics.toList =
    r.diagnostics.toList ++ (ds.filter r.isNew).eraseDupsBy Diagnostic.same := by
  induction ds generalizing r with
  | nil => exact (List.append_nil _).symm
  | cons d ds ih =>
      change ((r.add d).addAll ds).diagnostics.toList = _
      rw [ih]
      by_cases hnew : r.isNew d = true
      · have hrest :
            ds.filter (r.add d).isNew = (ds.filter r.isNew).filter fun x => decide (x.same d = false) := by
          rw [List.filter_filter]
          refine List.filter_congr fun x _ => ?_
          rw [seen_add hnew, Bool.and_comm, Diagnostic.same_comm]
          unfold Diagnostic.same
          cases d.identity == x.identity <;> rfl
        have hpush : (r.add d).diagnostics.toList = r.diagnostics.toList ++ [d] := by
          unfold add
          rw [if_neg (by simpa [isNew] using hnew), Array.toList_push]
        rw [hrest, hpush, List.filter_cons_of_pos hnew, List.eraseDupsBy_cons, List.append_assoc,
          List.singleton_append]
      · have hsame : r.add d = r := by
          unfold add
          rw [if_pos (by simpa [isNew] using hnew)]
        rw [hsame, List.filter_cons_of_neg hnew]

-- Of reports that are equal when they say the same, each is kept once.
theorem diagnostics_addAll (hinj : ∀ d ∈ ds, ∀ d' ∈ ds, d.identity = d'.identity → d = d') :
    (r.addAll ds).diagnostics.toList = r.diagnostics.toList ++ (ds.filter r.isNew).eraseDups := by
  rw [toList_addAll, List.eraseDups]
  refine congrArg _ (eraseDupsBy_congr fun d hd d' hd' => ?_)
  rw [Bool.eq_iff_iff, Diagnostic.same_iff, beq_iff_eq]
  refine ⟨hinj d (List.mem_filter.mp hd).1 d' (List.mem_filter.mp hd').1, ?_⟩
  rintro rfl
  rfl

theorem toList_addAll_empty (ds : List Diagnostic) :
    (({} : Report).addAll ds).diagnostics.toList = ds.eraseDupsBy Diagnostic.same := by
  rw [toList_addAll, List.filter_eq_self.mpr fun d _ => by simp [isNew]]
  rfl

theorem addAll_append (r : Report) (ds ds' : List Diagnostic) :
    r.addAll (ds ++ ds') = (r.addAll ds).addAll ds' :=
  List.foldl_append

section Order

-- The order of reports by file.
def notAfter (a b : Diagnostic) : Bool := !b.file.before a.file

theorem notAfter_trans (a b c : Diagnostic) (hab : notAfter a b = true) (hbc : notAfter b c = true) :
    notAfter a c = true := by
  unfold notAfter at hab hbc ⊢
  cases ha : a.file <;> cases hb : b.file <;> cases hc : c.file <;> simp_all [FileId.before] <;> omega

theorem notAfter_total (a b : Diagnostic) : (notAfter a b || notAfter b a) = true := by
  unfold notAfter
  cases ha : a.file <;> cases hb : b.file <;> simp [FileId.before] <;> omega

theorem notAfter_of_eq {a b : Diagnostic} (h : a.file = b.file) : notAfter a b = true := by
  unfold notAfter
  rw [h]
  cases b.file <;> simp [FileId.before]

theorem notAfter_of_before {a b : Diagnostic} (h : a.file.before b.file = true) : notAfter a b = true := by
  unfold notAfter
  cases ha : a.file <;> cases hb : b.file <;> simp_all [FileId.before] <;> omega

theorem eq_of_notAfter {a b : Diagnostic} (hab : notAfter a b = true) (hba : notAfter b a = true) :
    a.file = b.file := by
  unfold notAfter at hab hba
  cases ha : a.file <;> cases hb : b.file <;> simp_all [FileId.before] <;> omega

theorem pairwise_byFile (r : Report) : r.byFile.Pairwise (notAfter · ·) :=
  List.pairwise_mergeSort notAfter_trans notAfter_total _

-- Within a file the order stays.
theorem filter_byFile (r : Report) (file : FileId) :
    r.byFile.filter (·.file == file) = r.diagnostics.toList.filter (·.file == file) := by
  have hsorted : (r.diagnostics.toList.filter (·.file == file)).Pairwise (notAfter · ·) := by
    refine List.pairwise_iff_forall_sublist.mpr fun {a b} hab => ?_
    have hmem (x : Diagnostic) (hx : x ∈ [a, b]) : x.file = file :=
      beq_iff_eq.mp (List.mem_filter.mp (hab.subset hx)).2
    exact notAfter_of_eq ((hmem a (by simp)).trans (hmem b (by simp)).symm)
  have hsub := (List.sublist_mergeSort notAfter_trans notAfter_total hsorted
    List.filter_sublist).filter (·.file == file)
  rw [List.filter_filter] at hsub
  simp only [Bool.and_self] at hsub
  exact (hsub.eq_of_length (r.byFile_perm.filter _).length_eq.symm).symm

-- Lists that are sorted by file are equal if they agree about every file.
theorem eq_of_filter_file {l l' : List Diagnostic} (h : l.Pairwise (notAfter · ·))
    (h' : l'.Pairwise (notAfter · ·))
    (hfiles : ∀ file, l.filter (·.file == file) = l'.filter (·.file == file)) :
    l = l' := by
  induction l generalizing l' with
  | nil =>
      cases l' with
      | nil => rfl
      | cons d' l' => simpa using hfiles d'.file
  | cons d l ih =>
      cases l' with
      | nil => simpa using hfiles d.file
      | cons d' l' =>
          have hmem : d ∈ d' :: l' := by
            have hd : d ∈ (d' :: l').filter (·.file == d.file) := hfiles d.file ▸ by simp
            exact (List.mem_filter.mp hd).1
          have hmem' : d' ∈ d :: l := by
            have hd : d' ∈ (d :: l).filter (·.file == d'.file) := (hfiles d'.file).symm ▸ by simp
            exact (List.mem_filter.mp hd).1
          have hle : notAfter d' d = true := by
            rcases List.mem_cons.mp hmem with rfl | hmem
            · exact notAfter_of_eq rfl
            · exact (List.pairwise_cons.mp h').1 d hmem
          have hle' : notAfter d d' = true := by
            rcases List.mem_cons.mp hmem' with rfl | hmem'
            · exact notAfter_of_eq rfl
            · exact (List.pairwise_cons.mp h).1 d' hmem'
          have hfile : d'.file = d.file := eq_of_notAfter hle hle'
          have hhead := hfiles d.file
          rw [List.filter_cons_of_pos (by simp), List.filter_cons_of_pos (by simp [hfile])] at hhead
          obtain ⟨rfl, -⟩ := List.cons.inj hhead
          refine congrArg _ (ih (List.pairwise_cons.mp h).2 (List.pairwise_cons.mp h').2 fun file => ?_)
          by_cases hd : d.file = file
          · simpa [hd] using hfiles file
          · simpa [hd] using hfiles file

end Order

end Report

-- A list without repeats in which only one entry is of a kind.
theorem filter_eq_singleton {α : Type} {l : List α} {p : α → Bool} {x : α} (h : l.Nodup) (hx : x ∈ l)
    (hp : p x = true) (hother : ∀ y ∈ l, p y = true → y = x) : l.filter p = [x] := by
  have hall : ∀ y ∈ l.filter p, y = x := fun y hy => by
    obtain ⟨hmem, hpy⟩ := List.mem_filter.mp hy
    exact hother y hmem hpy
  have hperm : (l.filter p).Perm [x] := by
    rw [List.perm_ext_iff_of_nodup (h.filter p) (List.nodup_singleton x)]
    intro y
    rw [List.mem_singleton]
    refine ⟨hall y, ?_⟩
    rintro rfl
    exact List.mem_filter.mpr ⟨hx, hp⟩
  exact List.perm_singleton.mp hperm

end SpriteScript
