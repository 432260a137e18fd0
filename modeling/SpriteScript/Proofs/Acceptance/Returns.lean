import SpriteScript.Proofs.Acceptance.Values

-- What a function returns where nothing is reported.
namespace SpriteScript.Check

-- The instances for the parts of a long function are found in one search.
set_option synthInstance.maxSize 1000

variable {r : Rules} {t : Tree} {s : State} {values : List Tree} {results : List Ty}

-- Returns one value as one result.
def returnOne (r : Rules) (x : Tree × Ty) : CheckM PUnit := do
  let o ← r.expr x.1 (some x.2)
  discard <| assignTo x.1 o x.2 "return statement"

-- Returns the items of one value, if they are as many as the results.
def returnItems (range : Text.ByteRange) (p : Problem) (count : Nat) (o : Operand) : CheckM Unit := do
  if o.isInvalid then
    return
  if let .tuple items := o.ty then
    if items.length == count then
      return
  problem range p

-- The value suits the result when its turn comes.
structure Returnable (r : Rules) (s : State) (x : Tree × Ty) : Prop where
  silent : Silent (r.expr x.1 (some x.2)) s
  suits : ((r.expr x.1 (some x.2)).run s).1.Suits ((r.expr x.1 (some x.2)).run s).2.model x.2

-- There are as many values as results, and each suits its result.
structure ReturnsEach (r : Rules) (s : State) (values : List Tree) (results : List Ty) : Prop where
  count : values.length = results.length
  each : ∀ before x after, values.zip results = before ++ x :: after →
    Returnable r ((forM before (returnOne r)).run s).2 x

-- There is one value for another number of results. It is a tuple of as many items, whatever their
-- types are, or in error already.
structure ReturnsAll (r : Rules) (s : State) (value : Tree) (results : List Ty) : Prop where
  count : results.length ≠ 1
  silent : Silent (r.expr value none) s
  items : ((r.expr value none).run s).1.isInvalid = true ∨
    ∃ items, ((r.expr value none).run s).1.ty = .tuple items ∧ items.length = results.length

variable [GathersRules r]

instance {x : Tree × Ty} : Gathers (returnOne r x) := by
  unfold returnOne
  infer_instance

theorem silent_returnOne {x : Tree × Ty} : Silent (returnOne r x) s ↔ Returnable r s x := by
  unfold returnOne
  rw [silent_bind]
  exact ⟨fun h => ⟨h.1, silent_assignTo.mp h.2⟩, fun h => ⟨h.silent, silent_assignTo.mpr h.suits⟩⟩

theorem silent_returnEach : Silent (forM (values.zip results) (returnOne r)) s ↔
    ∀ before x after, values.zip results = before ++ x :: after →
    Returnable r ((forM before (returnOne r)).run s).2 x := by
  simp only [silent_forM_iff, silent_returnOne]

instance {range : Text.ByteRange} {p : Problem} {count : Nat} {o : Operand} :
    Gathers (returnItems range p count o) := by
  unfold returnItems
  split
  · infer_instance
  · split
    · split <;> infer_instance
    · infer_instance

theorem silent_returnItems {range : Text.ByteRange} {p : Problem} {count : Nat} {o : Operand} :
    Silent (returnItems range p count o) s ↔
      o.isInvalid = true ∨ ∃ items, o.ty = .tuple items ∧ items.length = count := by
  unfold returnItems
  cases o.isInvalid with
  | true => exact iff_of_true rfl (.inl rfl)
  | false =>
      rw [if_neg Bool.false_ne_true, or_iff_right Bool.false_ne_true]
      split
      case h_1 items hitems =>
        rw [hitems]
        by_cases hcount : items.length = count
        · rw [if_pos (beq_iff_eq.mpr hcount)]
          exact iff_of_true rfl ⟨items, rfl, hcount⟩
        · rw [if_neg (by simpa using hcount)]
          exact iff_of_false not_silent_problem (by simpa using hcount)
      case h_2 hother =>
        exact iff_of_false not_silent_problem fun ⟨items, hitems, _⟩ => hother items hitems

-- Several values are returned only where each suits its result. Where one value is returned as several,
-- only their number is asked for.
theorem silent_checkReturn (hresults : s.context.results = some results) (hvalues : t.listed 0 ≠ []) :
    Silent (checkReturn r t) s ↔ ReturnsEach r s (t.listed 0) results ∨
      ∃ value, t.listed 0 = [value] ∧ ReturnsAll r s value results := by
  unfold checkReturn
  dsimp only
  generalize t.listed 0 = values at hvalues
  rw [silent_ask_bind, hresults]
  dsimp only
  rw [List.isEmpty_eq_false_iff.mpr hvalues, if_neg Bool.false_ne_true]
  by_cases hcount : values.length = results.length
  · have hloop :
        forIn (values.zip results) PUnit.unit (fun x _ => do returnOne r x; pure (.yield PUnit.unit)) =
        forM (values.zip results) (returnOne r) := forIn_eq_forM ..
    have hall : ¬∃ value, values = [value] ∧ ReturnsAll r s value results := by
      rintro ⟨value, rfl, h⟩
      exact h.count hcount.symm
    rw [if_pos (beq_iff_eq.mpr hcount), or_iff_left hall]
    simp only [returnOne, bind_assoc] at hloop
    rw [hloop, bind_pure_unit, silent_returnEach]
    exact ⟨fun h => ⟨hcount, h⟩, fun h => h.each⟩
  · have heach : ¬ReturnsEach r s values results := fun h => hcount h.count
    rw [if_neg (by simpa using hcount), or_iff_right heach]
    match values with
    | [] => exact absurd rfl hvalues
    | [value] =>
        have hone : results.length ≠ 1 := fun h => hcount h.symm
        change Silent (r.expr value none >>= returnItems t.range _ results.length) s ↔ _
        rw [silent_bind, silent_returnItems]
        constructor
        · rintro ⟨hsilent, hitems⟩
          exact ⟨value, rfl, hone, hsilent, hitems⟩
        · rintro ⟨_, hvalue, h⟩
          obtain rfl := List.singleton_inj.mp hvalue
          exact ⟨h.silent, h.items⟩
    | value :: value' :: rest =>
        refine iff_of_false (fun h => ?_) (by simp)
        exact not_silent_problem (silent_bind.mp h).2

end SpriteScript.Check
