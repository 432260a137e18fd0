import Mathlib.Algebra.BigOperators.Group.Finset.Basic
import Mathlib.Order.Bounds.Defs
import SpriteScript.Proofs.Repeats
import SpriteScript.Semantics.Model

-- The members of a type are those of all types that it embeds, nearest first.
namespace SpriteScript

-- The symbol is a field, a method that the type must have as an interface, or a method of its own.
inductive NamedType.Declares (n : NamedType) : SymbolId → Prop where
  | field {f : Field} : f ∈ n.fields → n.Declares f.symbol
  | required {methods : List SymbolId} {id : SymbolId} : n.underlying = .interface methods →
      id ∈ methods → n.Declares id
  | method {id : SymbolId} : id ∈ n.methods → n.Declares id

theorem NamedType.mem_ownMembers {n : NamedType} {id : SymbolId} : id ∈ n.ownMembers ↔ n.Declares id := by
  unfold ownMembers
  rw [List.mem_append]
  constructor
  · rintro (hid | hid)
    · split at hid
      case h_1 fields hfields =>
        obtain ⟨f, hf, rfl⟩ := List.mem_map.mp hid
        exact .field (by rwa [NamedType.fields, hfields])
      case h_2 methods hmethods => exact .required hmethods hid
      case h_3 => cases hid
    · exact .method hid
  · intro hid
    cases hid with
    | @field f hf =>
        left
        unfold NamedType.fields at hf
        split at hf
        case h_1 fields hfields =>
          rw [hfields]
          exact List.mem_map_of_mem hf
        case h_2 => cases hf
    | required hmethods hid =>
        left
        rwa [hmethods]
    | method hid => exact .inr hid

theorem NamedType.mem_embedded {n : NamedType} {inner : NamedId} :
    inner ∈ n.embedded ↔ ∃ f ∈ n.fields, f.embedded = true ∧ f.ty = .named inner := by
  unfold embedded
  rw [List.mem_filterMap]
  refine exists_congr fun f => and_congr_right fun _ => ?_
  cases f.embedded with
  | false => simp
  | true => cases f.ty <;> simp [Ty.named?]

namespace Model

-- A way of so many embedded fields leads from the type to the other one.
inductive EmbedsAt (m : Model) (root : NamedId) : Nat → NamedId → Prop where
  | self : m.EmbedsAt root 0 root
  | step {depth : Nat} {outer inner : NamedId} {f : Field} : m.EmbedsAt root depth outer →
      f ∈ (m.namedType outer).fields → f.embedded = true → f.ty = .named inner →
      m.EmbedsAt root (depth + 1) inner

def memberName (m : Model) (member : Member) : String := (m.symbol member.symbol).name

-- The type itself declares something of that name.
def DeclaresName (m : Model) (id : NamedId) (name : String) : Prop :=
  ∃ s, (m.namedType id).Declares s ∧ (m.symbol s).name = name

-- What the walk lets wait behind the other types when it comes by one.
def enqueued (m : Model) (id : NamedId) (depth : Nat) : List (NamedId × Nat) :=
  (m.namedType id).embedded.map (·, depth + 1)

-- The walk without a bound on its turns, by the types that wait and those that were visited. It
-- comes to an end with the types of the last list.
inductive Walk (m : Model) : List (NamedId × Nat) → List NamedId → List (NamedId × Nat) → Prop where
  | done {visited : List NamedId} : m.Walk [] visited []
  | again {id : NamedId} {depth : Nat} {queue out : List (NamedId × Nat)} {visited : List NamedId} :
      id ∈ visited → m.Walk queue visited out → m.Walk ((id, depth) :: queue) visited out
  | visit {id : NamedId} {depth : Nat} {queue out : List (NamedId × Nat)} {visited : List NamedId} :
      id ∉ visited → m.Walk (queue ++ m.enqueued id depth) (id :: visited) out →
      m.Walk ((id, depth) :: queue) visited ((id, depth) :: out)

variable {m : Model} {root id : NamedId} {depth k : Nat} {queue out : List (NamedId × Nat)}
variable {visited : List NamedId}

section Termination

-- The embeddings that may still be entered.
def unentered (m : Model) (visited : List NamedId) : Nat :=
  ∑ i ∈ Finset.range m.named.size with ⟨i⟩ ∉ visited, (m.namedType ⟨i⟩).embedded.length

theorem walkFuel_eq (m : Model) : m.walkFuel = 1 + m.unentered [] := by
  have hsum (types : List NamedType) (n : Nat) :
      types.foldl (fun n t => n + t.embedded.length) n =
        n + ∑ i ∈ Finset.range types.length, (types[i]?.getD default).embedded.length := by
    induction types generalizing n with
    | nil => rfl
    | cons t types ih =>
        rw [List.foldl_cons, ih, List.length_cons, Finset.sum_range_succ', Nat.add_assoc,
          Nat.add_comm t.embedded.length]
        rfl
  unfold walkFuel unentered
  rw [← Array.foldl_toList, hsum, Finset.filter_true_of_mem fun i _ => List.not_mem_nil]
  simp only [namedType, Array.getElem?_toList, Array.length_toList]

-- A type that the table does not have embeds none.
theorem unentered_visit (h : id ∉ visited) :
    (m.namedType id).embedded.length + m.unentered (id :: visited) = m.unentered visited := by
  have herase : {i ∈ Finset.range m.named.size | ⟨i⟩ ∉ id :: visited} =
      {i ∈ Finset.range m.named.size | ⟨i⟩ ∉ visited}.erase id.index := by
    ext i
    have hid : (⟨i⟩ : NamedId) = id ↔ i = id.index := by
      cases id
      simp
    simp only [Finset.mem_filter, Finset.mem_erase, List.mem_cons, not_or, hid]
    tauto
  unfold unentered
  rw [herase]
  by_cases hlt : id.index < m.named.size
  · exact Finset.add_sum_erase _ (fun i => (m.namedType ⟨i⟩).embedded.length)
      (Finset.mem_filter.mpr ⟨Finset.mem_range.mpr hlt, h⟩)
  · have hnone : (m.namedType id).embedded = [] := by
      rw [namedType, Array.getElem?_eq_none (Nat.le_of_not_lt hlt)]
      rfl
    rw [hnone, List.length_nil, Nat.zero_add, Finset.erase_eq_of_notMem]
    exact fun hmem => hlt (Finset.mem_range.mp (Finset.mem_filter.mp hmem).1)

-- Each turn takes a type from the queue, and only the first visit of a type lets others wait.
theorem walk_walkTypes {fuel : Nat} (h : queue.length + m.unentered visited ≤ fuel) :
    m.Walk queue visited (m.walkTypes fuel queue visited) := by
  induction fuel generalizing queue visited with
  | zero =>
      obtain rfl := List.length_eq_zero_iff.mp (Nat.eq_zero_of_le_zero (Nat.le_trans (Nat.le_add_right ..) h))
      exact .done
  | succ fuel ih =>
      match queue with
      | [] => exact .done
      | (id, depth) :: queue =>
          rw [List.length_cons] at h
          unfold walkTypes
          dsimp only
          cases hid : visited.contains id with
          | true =>
              rw [if_pos rfl]
              exact .again (List.contains_iff_mem.mp hid) (ih (by omega))
          | false =>
              have hnew : id ∉ visited := fun hmem => by simp [hmem] at hid
              have hleft := unentered_visit (m := m) hnew
              rw [if_neg Bool.false_ne_true]
              refine .visit hnew (ih ?_)
              rw [List.length_append, enqueued, List.length_map]
              omega

theorem walk_embeddedTypes (m : Model) (id : NamedId) : m.Walk [(id, 0)] [] (m.embeddedTypes id) :=
  walk_walkTypes (walkFuel_eq m).ge

end Termination

section Order

-- The types that wait lie in at most two layers, the nearer one before the other.
def Layered (queue : List (NamedId × Nat)) : Prop := queue.Pairwise fun a b => a.2 ≤ b.2 ∧ b.2 ≤ a.2 + 1

theorem Layered.visit (h : Layered ((id, depth) :: queue)) : Layered (queue ++ m.enqueued id depth) := by
  obtain ⟨hhead, hqueue⟩ := List.pairwise_cons.mp h
  have hnext : ∀ b ∈ m.enqueued id depth, b.2 = depth + 1 := by
    intro b hb
    obtain ⟨inner, -, rfl⟩ := List.mem_map.mp hb
    rfl
  refine List.pairwise_append.mpr ⟨hqueue, List.pairwise_of_forall_mem_list fun a ha b hb => ?_,
    fun a ha b hb => ?_⟩
  · rw [hnext a ha, hnext b hb]
    omega
  · have hlayer := hhead a ha
    rw [hnext b hb]
    omega

-- What the walk comes by is no nearer than all that waits.
theorem Walk.depth_le (h : m.Walk queue visited out) (hqueue : ∀ a ∈ queue, k ≤ a.2) :
    ∀ a ∈ out, k ≤ a.2 := by
  induction h with
  | done => exact nofun
  | again _ _ ih => exact ih fun a ha => hqueue a (List.mem_cons_of_mem _ ha)
  | visit _ _ ih =>
      have hhead := hqueue _ List.mem_cons_self
      refine List.forall_mem_cons.mpr ⟨hhead, ih fun a ha => ?_⟩
      rcases List.mem_append.mp ha with ha | ha
      · exact hqueue a (List.mem_cons_of_mem _ ha)
      · obtain ⟨inner, -, rfl⟩ := List.mem_map.mp ha
        exact Nat.le_succ_of_le hhead

theorem Walk.pairwise (h : m.Walk queue visited out) (hqueue : Layered queue) : out.Pairwise (·.2 ≤ ·.2) := by
  induction h with
  | done => exact .nil
  | again _ _ ih => exact ih (List.pairwise_cons.mp hqueue).2
  | visit _ hrest ih =>
      refine List.pairwise_cons.mpr ⟨hrest.depth_le fun a ha => ?_, ih hqueue.visit⟩
      rcases List.mem_append.mp ha with ha | ha
      · exact ((List.pairwise_cons.mp hqueue).1 a ha).1
      · obtain ⟨inner, -, rfl⟩ := List.mem_map.mp ha
        exact Nat.le_succ _

-- The walk comes by all that waits, by then at the latest.
theorem Walk.exists_of_mem_queue (h : m.Walk queue visited out) (hqueue : Layered queue) :
    ∀ a ∈ queue, a.1 ∈ visited ∨ ∃ depth ≤ a.2, (a.1, depth) ∈ out := by
  induction h with
  | done => exact nofun
  | again hid _ ih => exact List.forall_mem_cons.mpr ⟨.inl hid, ih (List.pairwise_cons.mp hqueue).2⟩
  | visit _ _ ih =>
      refine List.forall_mem_cons.mpr ⟨.inr ⟨_, le_rfl, List.mem_cons_self⟩, fun a ha => ?_⟩
      rcases ih hqueue.visit a (List.mem_append_left _ ha) with hvisited | ⟨depth, hle, hmem⟩
      · rcases List.mem_cons.mp hvisited with heq | hvisited
        · rw [heq]
          exact .inr ⟨_, ((List.pairwise_cons.mp hqueue).1 a ha).1, List.mem_cons_self⟩
        · exact .inl hvisited
      · exact .inr ⟨depth, hle, List.mem_cons_of_mem _ hmem⟩

-- With a type it comes by those that the type embeds, one embedding later at the latest.
theorem Walk.exists_of_embedded (h : m.Walk queue visited out) (hqueue : Layered queue) :
    ∀ a ∈ out, ∀ inner ∈ (m.namedType a.1).embedded, inner ∈ visited ∨ ∃ depth ≤ a.2 + 1,
    (inner, depth) ∈ out := by
  induction h with
  | done => exact nofun
  | again _ _ ih => exact ih (List.pairwise_cons.mp hqueue).2
  | @visit id depth queue out visited hnew hrest ih =>
      have hnext := hqueue.visit (m := m)
      -- what holds of the rest of the walk, where the type counts as visited
      have hlift (bound : Nat) (hbound : depth ≤ bound) {inner : NamedId}
          (h : inner ∈ id :: visited ∨ ∃ depth ≤ bound, (inner, depth) ∈ out) :
          inner ∈ visited ∨ ∃ depth' ≤ bound, (inner, depth') ∈ (id, depth) :: out := by
        rcases h with hvisited | ⟨depth', hle, hmem⟩
        · rcases List.mem_cons.mp hvisited with rfl | hvisited
          · exact .inr ⟨depth, hbound, List.mem_cons_self⟩
          · exact .inl hvisited
        · exact .inr ⟨depth', hle, List.mem_cons_of_mem _ hmem⟩
      refine List.forall_mem_cons.mpr ⟨fun inner hinner => ?_, fun a ha inner hinner => ?_⟩
      · refine hlift (depth + 1) (Nat.le_succ _) ?_
        exact hrest.exists_of_mem_queue hnext (inner, depth + 1)
          (List.mem_append_right _ (List.mem_map_of_mem hinner))
      · have hdepth : depth ≤ a.2 := (List.pairwise_cons.mp ((Walk.visit hnew hrest).pairwise hqueue)).1 a ha
        exact hlift (a.2 + 1) (Nat.le_succ_of_le hdepth) (ih hnext a ha inner hinner)

theorem Walk.embedsAt (h : m.Walk queue visited out) (hqueue : ∀ a ∈ queue, m.EmbedsAt root a.2 a.1) :
    ∀ a ∈ out, m.EmbedsAt root a.2 a.1 := by
  induction h with
  | done => exact nofun
  | again _ _ ih => exact ih fun a ha => hqueue a (List.mem_cons_of_mem _ ha)
  | visit _ _ ih =>
      have hhead := hqueue _ List.mem_cons_self
      refine List.forall_mem_cons.mpr ⟨hhead, ih fun a ha => ?_⟩
      rcases List.mem_append.mp ha with ha | ha
      · exact hqueue a (List.mem_cons_of_mem _ ha)
      · obtain ⟨inner, hinner, rfl⟩ := List.mem_map.mp ha
        obtain ⟨f, hf, hembedded, hty⟩ := NamedType.mem_embedded.mp hinner
        exact .step hhead hf hembedded hty

end Order

section Types

theorem layered_singleton (a : NamedId × Nat) : Layered [a] := List.pairwise_singleton ..

theorem embeddedTypes_pairwise (m : Model) (root : NamedId) : (m.embeddedTypes root).Pairwise (·.2 ≤ ·.2) :=
  (walk_embeddedTypes m root).pairwise (layered_singleton _)

theorem embedsAt_of_mem_embeddedTypes (h : (id, depth) ∈ m.embeddedTypes root) : m.EmbedsAt root depth id :=
  (walk_embeddedTypes m root).embedsAt (List.forall_mem_singleton.mpr .self) _ h

-- No way to a type is shorter than the one on which the walk comes by it.
theorem EmbedsAt.exists_mem_embeddedTypes (h : m.EmbedsAt root depth id) :
    ∃ nearest ≤ depth, (id, nearest) ∈ m.embeddedTypes root := by
  have hwalk := walk_embeddedTypes m root
  induction h with
  | self => simpa using hwalk.exists_of_mem_queue (layered_singleton _) (root, 0) List.mem_cons_self
  | @step depth outer inner f _ hf hembedded hty ih =>
      obtain ⟨nearest, hle, hmem⟩ := ih
      have hinner := NamedType.mem_embedded.mpr ⟨f, hf, hembedded, hty⟩
      rcases hwalk.exists_of_embedded (layered_singleton _) _ hmem inner hinner with
        hvisited | ⟨depth', hle', hmem'⟩
      · cases hvisited
      · exact ⟨depth', Nat.le_trans hle' (Nat.succ_le_succ hle), hmem'⟩

end Types

section Members

variable {name : String} {x : Member}

theorem members_eq (m : Model) (root : NamedId) :
    m.members root = (m.allMembers root).eraseDupsBy (sameKey m.memberName) := by
  have hfirst := eq_eraseDupsBy_of_seen m.memberName id m.firstOfName
    (fun _ => rfl) (fun _ _ _ => rfl) (m.allMembers root) {}
  rw [members, hfirst, List.map_id, List.filter_eq_self.mpr]
  simp

theorem member?_eq (m : Model) (root : NamedId) (name : String) :
    m.member? root name = ((m.members root).find? (m.memberName · == name)).map (·.symbol) := by
  rw [members_eq, find?_eraseDupsBy_sameKey]
  rfl

theorem mem_allMembers : x ∈ m.allMembers root ↔
    ∃ id, (id, x.depth) ∈ m.embeddedTypes root ∧ (m.namedType id).Declares x.symbol := by
  unfold allMembers
  rw [List.mem_flatMap]
  constructor
  · rintro ⟨⟨id, depth⟩, hid, hx⟩
    obtain ⟨s, hs, rfl⟩ := List.mem_map.mp hx
    exact ⟨id, hid, NamedType.mem_ownMembers.mp hs⟩
  · rintro ⟨id, hid, hs⟩
    exact ⟨(id, x.depth), hid, List.mem_map.mpr ⟨x.symbol, NamedType.mem_ownMembers.mpr hs, rfl⟩⟩

theorem allMembers_pairwise (m : Model) (root : NamedId) :
    (m.allMembers root).Pairwise (·.depth ≤ ·.depth) := by
  unfold allMembers
  refine List.pairwise_flatMap.mpr ⟨fun (id, depth) _ => ?_,
    (embeddedTypes_pairwise m root).imp fun hle x hx y hy => ?_⟩
  · exact List.pairwise_map.mpr (List.pairwise_of_forall fun _ _ => le_rfl)
  · obtain ⟨s, -, rfl⟩ := List.mem_map.mp hx
    obtain ⟨s', -, rfl⟩ := List.mem_map.mp hy
    exact hle

theorem nodup_members (m : Model) (root : NamedId) : ((m.members root).map m.memberName).Nodup :=
  members_eq m root ▸ nodup_eraseDupsBy_sameKey ..

theorem members_pairwise (m : Model) (root : NamedId) : (m.members root).Pairwise (·.depth ≤ ·.depth) :=
  members_eq m root ▸ (allMembers_pairwise m root).sublist (eraseDupsBy_sublist ..)

theorem embedsAt_of_mem_members (h : x ∈ m.members root) :
    ∃ id, m.EmbedsAt root x.depth id ∧ (m.namedType id).Declares x.symbol := by
  rw [members_eq] at h
  obtain ⟨id, hid, hs⟩ := mem_allMembers.mp (eraseDupsBy_subset _ _ h)
  exact ⟨id, embedsAt_of_mem_embeddedTypes hid, hs⟩

-- Of the members with one name the first one counts, and none is nearer.
theorem EmbedsAt.exists_mem_members (h : m.EmbedsAt root depth id) (hname : m.DeclaresName id name) :
    ∃ x ∈ m.members root, m.memberName x = name ∧ x.depth ≤ depth := by
  obtain ⟨s, hs, hname⟩ := hname
  obtain ⟨nearest, hle, hmem⟩ := h.exists_mem_embeddedTypes
  have hall : (⟨s, nearest⟩ : Member) ∈ m.allMembers root := mem_allMembers.mpr ⟨id, hmem, hs⟩
  obtain ⟨x, hx⟩ : ∃ x, (m.allMembers root).find? (m.memberName · == name) = some x :=
    Option.isSome_iff_exists.mp (List.find?_isSome.mpr ⟨_, hall, beq_iff_eq.mpr hname⟩)
  obtain ⟨hnamed, before, behind, hsplit, hbefore⟩ := List.find?_eq_some_iff_append.mp hx
  have hdepth : x.depth ≤ nearest := by
    have hsorted := allMembers_pairwise m root
    rw [hsplit] at hall hsorted
    rcases List.mem_append.mp hall with hall | hall
    · have hother := hbefore _ hall
      simp [memberName, hname] at hother
    · rcases List.mem_cons.mp hall with rfl | hall
      · exact le_rfl
      · exact (List.pairwise_cons.mp (List.pairwise_append.mp hsorted).2.1).1 _ hall
  rw [← find?_eraseDupsBy_sameKey, ← members_eq] at hx
  exact ⟨x, List.mem_of_find?_eq_some hx, beq_iff_eq.mp hnamed, Nat.le_trans hdepth hle⟩

-- The walk over the embedded types comes to an end, and lists each name that one of them declares
-- once, with the length of the shortest way to such a type.
theorem members_breadth_first (m : Model) (root : NamedId) :
    m.Walk [(root, 0)] [] (m.embeddedTypes root) ∧
    ((m.members root).map m.memberName).Nodup ∧
    (∀ name, name ∈ (m.members root).map m.memberName ↔ ∃ depth id, m.EmbedsAt root depth id ∧
      m.DeclaresName id name) ∧
    (∀ x ∈ m.members root, (∃ id, m.EmbedsAt root x.depth id ∧ (m.namedType id).Declares x.symbol) ∧
      IsLeast {depth | ∃ id, m.EmbedsAt root depth id ∧ m.DeclaresName id (m.memberName x)} x.depth) ∧
    (m.members root).Pairwise (·.depth ≤ ·.depth) := by
  have hdeclared (x : Member) (hx : x ∈ m.members root) :
      ∃ id, m.EmbedsAt root x.depth id ∧ m.DeclaresName id (m.memberName x) := by
    obtain ⟨id, hid, hs⟩ := embedsAt_of_mem_members hx
    exact ⟨id, hid, x.symbol, hs, rfl⟩
  refine ⟨walk_embeddedTypes m root, nodup_members m root, fun name => ⟨fun hname => ?_, ?_⟩,
    fun x hx => ⟨embedsAt_of_mem_members hx, hdeclared x hx, ?_⟩, members_pairwise m root⟩
  · obtain ⟨x, hx, rfl⟩ := List.mem_map.mp hname
    exact ⟨x.depth, hdeclared x hx⟩
  · rintro ⟨depth, id, hid, hname⟩
    obtain ⟨x, hx, rfl, -⟩ := hid.exists_mem_members hname
    exact List.mem_map_of_mem hx
  · rintro depth ⟨id, hid, hname⟩
    obtain ⟨y, hy, hsame, hle⟩ := hid.exists_mem_members hname
    rwa [List.inj_on_of_nodup_map (nodup_members m root) hy hx hsame] at hle

end Members

end Model

end SpriteScript
