import Mathlib.Data.List.Nodup
import Std.Data.HashSet.Lemmas

-- Lists without the entries that repeat an earlier one.
namespace SpriteScript

variable {α β : Type} {r r' : α → α → Bool} {p : α → Bool} {key : α → String} {l : List α}

-- Dropping repeats goes on without the repeats of the first entry.
theorem eraseDupsBy_induct {P : List α → Prop} (r : α → α → Bool) (nil : P [])
    (cons : ∀ a l, P (l.filter fun b => decide (r b a = false)) → P (a :: l)) (l : List α) : P l := by
  induction hn : l.length using Nat.strongRecOn generalizing l with
  | ind n ih =>
      subst hn
      cases l with
      | nil => exact nil
      | cons a l => exact cons a l (ih _ (Nat.lt_succ_of_le (List.length_filter_le ..)) _ rfl)

theorem eraseDupsBy_sublist (r : α → α → Bool) (l : List α) : (l.eraseDupsBy r).Sublist l := by
  induction l using eraseDupsBy_induct r with
  | nil => exact .slnil
  | cons a l ih =>
      rw [List.eraseDupsBy_cons]
      exact (ih.trans List.filter_sublist).cons_cons a

theorem eraseDupsBy_subset (r : α → α → Bool) (l : List α) : l.eraseDupsBy r ⊆ l :=
  (eraseDupsBy_sublist r l).subset

-- Repeats are found out by how the entries of the list compare.
theorem eraseDupsBy_congr {l : List α} (h : ∀ a ∈ l, ∀ b ∈ l, r a b = r' a b) :
    l.eraseDupsBy r = l.eraseDupsBy r' := by
  induction l using eraseDupsBy_induct r with
  | nil => rfl
  | cons a l ih =>
      have hsame : (l.filter fun b => decide (r b a = false)) = l.filter fun b => decide (r' b a = false) :=
        List.filter_congr fun b hb => by rw [h b (List.mem_cons_of_mem a hb) a List.mem_cons_self]
      rw [List.eraseDupsBy_cons, List.eraseDupsBy_cons, ← hsame]
      refine congrArg _ (ih fun b hb c hc => ?_)
      exact h b (List.mem_cons_of_mem a (List.mem_filter.mp hb).1) c
        (List.mem_cons_of_mem a (List.mem_filter.mp hc).1)

-- A property that repeats share can be asked for before or after.
theorem filter_eraseDupsBy (h : ∀ a b, r b a = true → p b = p a) (l : List α) :
    (l.eraseDupsBy r).filter p = (l.filter p).eraseDupsBy r := by
  induction l using eraseDupsBy_induct r with
  | nil => rfl
  | cons a l ih =>
      rw [List.eraseDupsBy_cons, List.filter_cons, List.filter_cons, ih, List.filter_filter]
      cases ha : p a with
      | true =>
          rw [if_pos rfl, if_pos rfl, List.eraseDupsBy_cons, List.filter_filter]
          simp only [Bool.and_comm]
      | false =>
          rw [if_neg Bool.false_ne_true, if_neg Bool.false_ne_true]
          refine congrArg _ (List.filter_congr fun b _ => ?_)
          cases hb : p b with
          | false => rfl
          | true => exact decide_eq_true (Bool.eq_false_iff.mpr fun hr => by simp [h a b hr, ha] at hb)

theorem head?_eraseDupsBy (r : α → α → Bool) (l : List α) : (l.eraseDupsBy r).head? = l.head? := by
  cases l with
  | nil => rfl
  | cons a l => rw [List.eraseDupsBy_cons, List.head?_cons, List.head?_cons]

-- What is found first is no repeat.
theorem find?_eraseDupsBy (h : ∀ a b, r b a = true → p b = p a) (l : List α) :
    (l.eraseDupsBy r).find? p = l.find? p := by
  rw [← List.head?_filter, filter_eraseDupsBy h, head?_eraseDupsBy, List.head?_filter]

section Keys

-- Entries with one key are repeats.
def sameKey (key : α → String) (a b : α) : Bool := key a == key b

theorem sameKey_iff {a b : α} : sameKey key a b = true ↔ key a = key b := beq_iff_eq

theorem find?_eraseDupsBy_sameKey (key : α → String) (name : String) (l : List α) :
    (l.eraseDupsBy (sameKey key)).find? (key · == name) = l.find? (key · == name) :=
  find?_eraseDupsBy (fun _ _ h => by rw [sameKey_iff.mp h]) l

theorem nodup_eraseDupsBy_sameKey (key : α → String) (l : List α) :
    ((l.eraseDupsBy (sameKey key)).map key).Nodup := by
  induction l using eraseDupsBy_induct (sameKey key) with
  | nil => exact .nil
  | cons a l ih =>
      rw [List.eraseDupsBy_cons, List.map_cons, List.nodup_cons]
      refine ⟨fun ha => ?_, ih⟩
      obtain ⟨b, hb, heq⟩ := List.mem_map.mp ha
      have hother := (List.mem_filter.mp (eraseDupsBy_subset _ _ hb)).2
      rw [decide_eq_true_iff, sameKey, heq, beq_self_eq_true] at hother
      cases hother

-- A loop that keeps what has a key not seen before drops the repeats.
theorem eq_eraseDupsBy_of_seen (key : α → String) (of : α → β) (f : List α → Std.HashSet String → List β)
    (nil : ∀ seen, f [] seen = [])
    (cons : ∀ a l seen, f (a :: l) seen =
      if seen.contains (key a) then f l seen else of a :: f l (seen.insert (key a)))
    (l : List α) (seen : Std.HashSet String) :
    f l seen = ((l.filter fun a => !seen.contains (key a)).eraseDupsBy (sameKey key)).map of := by
  induction l generalizing seen with
  | nil => rw [nil, List.filter_nil, List.eraseDupsBy_nil, List.map_nil]
  | cons a l ih =>
      rw [cons, List.filter_cons]
      cases hseen : seen.contains (key a) with
      | true => rw [if_pos rfl, ih, Bool.not_true, if_neg Bool.false_ne_true]
      | false =>
          rw [if_neg Bool.false_ne_true, ih, Bool.not_false, if_pos rfl, List.eraseDupsBy_cons, List.map_cons,
            List.filter_filter]
          refine congrArg (fun rest => of a :: (rest.eraseDupsBy (sameKey key)).map of)
            (List.filter_congr fun b _ => ?_)
          rw [Std.HashSet.contains_insert, Bool.not_or, sameKey, BEq.comm]
          cases key b == key a <;> simp

-- Where keys are unique, an entry is what is found by its key.
theorem find?_key_eq_some_iff (h : (l.map key).Nodup) {name : String} {a : α} :
    l.find? (key · == name) = some a ↔ a ∈ l ∧ key a = name := by
  constructor
  · intro hfound
    exact ⟨List.mem_of_find?_eq_some hfound, beq_iff_eq.mp (List.find?_some hfound :)⟩
  · rintro ⟨hmem, rfl⟩
    obtain ⟨b, hb⟩ : ∃ b, l.find? (key · == key a) = some b :=
      Option.isSome_iff_exists.mp (List.find?_isSome.mpr ⟨a, hmem, beq_self_eq_true (key a)⟩)
    have hkey : key b = key a := beq_iff_eq.mp (List.find?_some hb :)
    rw [hb, List.inj_on_of_nodup_map h (List.mem_of_find?_eq_some hb) hmem hkey]

end Keys

end SpriteScript
