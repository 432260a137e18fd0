import SpriteScript.Proofs.Lossless
import SpriteScript.Proofs.Loops
import SpriteScript.Syntax.Access

-- What is left of a file behind a closing delimiter that closes nothing. With nothing to stop at
-- the parser puts all of it into one node, so that no item comes behind the delimiter.
namespace SpriteScript.Syntax

open SpriteScript.Tree (Blanks)

section Errors

-- Taking tokens reports nothing.

theorem errors_repeatWhile {step : Action Bool} (h : ∀ s, (step.run s).2.errors = s.errors) (fuel : Nat)
    (s : Cursor) : ((repeatWhile fuel step).run s).2.errors = s.errors := by
  induction fuel generalizing s with
  | zero => rfl
  | succ fuel ih =>
      rw [repeatWhile, run_bind]
      split
      · exact (ih _).trans (h s)
      · exact h s

theorem errors_takeUntil (fuel : Nat) (stops : List TokenKind) (s : Cursor) :
    ((takeUntil fuel stops).run s).2.errors = s.errors := by
  refine errors_repeatWhile (fun s => ?_) fuel s
  rw [run_isAtEnd_bind, run_isAtAny_bind]
  split
  · rfl
  · exact errors_bump s

theorem errors_takeSome (fuel : Nat) (stops : List TokenKind) (s : Cursor) :
    ((takeSome fuel stops).run s).2.errors = s.errors := by
  unfold takeSome
  rw [run_get_bind, run_bind, run_get_bind]
  split
  · exact (errors_bump _).trans (errors_takeUntil fuel stops s)
  · exact errors_takeUntil fuel stops s

-- Skipping reports one thing, where it starts.
theorem errors_skipTo (fuel : Nat) (f : Fault) (stops : List TokenKind) (s : Cursor) :
    ((skipTo fuel f stops).run s).2.errors = ⟨f, s.errorRange⟩ :: s.errors :=
  (errors_takeSome fuel stops _).trans (errors_flush (s.report f))

end Errors

-- What takes a token takes all of them if nothing stops it.
theorem skipTo_ends {s : Cursor} (h : s.Sound) (f : Fault) {fuel : Nat} (hfuel : s.rest.length < fuel) :
    ((skipTo fuel f []).run s).2.current? = none := by
  have hreport := grows_report h f
  have hflush := grows_flush hreport.sound
  have hstart := sound_start hflush.sound .error
  have hlength : ((s.report f).flush.start .error).rest.length < fuel :=
    Nat.lt_of_le_of_lt (hflush.length_le.trans hreport.length_le) hfuel
  have htaken := takeUntil_ends hstart hlength
  show ((takeSome fuel []).run ((s.report f).flush.start .error)).2.current? = none
  unfold takeSome
  rw [run_get_bind, run_bind, run_get_bind]
  have hsound := sound_run (takeUntil fuel []) hstart
  split
  · exact ended_run bump hsound htaken
  · exact htaken

namespace Rules

variable {g : Rules} {s : Cursor}

theorem run_separators_of_end (hend : s.current? = none) : g.separators.run s = ((), s) :=
  run_eatWhile_of_not (by rw [Cursor.kind?, hend]; rfl) g.fuel

theorem run_itemStep_of_end (hend : s.current? = none) : g.itemStep.run s = (false, s) := by
  rw [itemStep, run_bind, run_separators_of_end hend, run_isAtEnd_bind, hend]
  rfl

-- A turn that comes to a closing delimiter skips to the end of the text.
theorem run_itemStep_of_closing (hs : s.Sound) (hfuel : s.rest.length < g.fuel)
    (hkind : s.kind? = some .rBrace ∨ s.kind? = some .rParen) :
    g.itemStep.run s = (true, ((g.skipTo .closingDelimiter []).run s).2) := by
  have hends : ((g.skipTo .closingDelimiter []).run s).2.current? = none := skipTo_ends hs _ hfuel
  have hcurrent : s.current?.isNone = false := by
    rcases hkind with hkind | hkind <;> obtain ⟨t, ht, -⟩ :=
      Option.map_eq_some_iff.mp hkind <;> rw [ht] <;> rfl
  have hseparators : g.separators.run s = ((), s) :=
    run_eatWhile_of_not (by rcases hkind with hkind | hkind <;> rw [hkind] <;> rfl) g.fuel
  have hitem : g.item.run s = (g.skipTo .closingDelimiter []).run s := by
    rw [item, run_kind?_bind]
    rcases hkind with hkind | hkind <;> rw [hkind]
  have hend (s' : Cursor) (hs' : s'.current? = none) : g.statementEnd.run s' = ((), s') := by
    rw [statementEnd, run_isAtEnd_bind, hs']
    rfl
  have hmoved (s' : Cursor) (hs' : s'.current? = none) (before : Nat) :
      (g.unlessMoved before).run s' = ((), s') := by
    rw [unlessMoved, run_kind?_bind, Cursor.kind?, hs']
    rfl
  rw [itemStep, run_bind, hseparators, run_isAtEnd_bind, hcurrent, if_neg Bool.false_ne_true,
    run_get_bind, run_bind, hitem, run_bind, hend _ hends, run_bind, hmoved _ hends]
  rfl

-- So the closing delimiter is the last thing that the items of a file come to.
theorem run_items_of_closing (hs : s.Sound) (hfuel : s.rest.length < g.fuel)
    (hkind : s.kind? = some .rBrace ∨ s.kind? = some .rParen) :
    (g.items.run s).2 = ((g.skipTo .closingDelimiter []).run s).2 := by
  obtain ⟨fuel, hfuel'⟩ := Nat.exists_eq_add_of_lt hfuel
  have hends : ((g.skipTo .closingDelimiter []).run s).2.current? = none := skipTo_ends hs _ hfuel
  rw [items_eq, hfuel', repeatWhile, run_bind, run_itemStep_of_closing hs hfuel hkind]
  exact congrArg Prod.snd (run_repeatWhile_of_false (run_itemStep_of_end hends) _)

-- What is skipped holds no item.
theorem grows_skipTo (hs : s.Sound) (fuel : Nat) (f : Fault) (stops : List TokenKind) :
    ∃ new, Grows s ((Syntax.skipTo fuel f stops).run s).2 new ∧ ∀ t ∈ new,
    t.kind?.any NodeKind.isItem = false := by
  have hreport := grows_report hs f
  have hblank : Blanks fun t => t.kind?.any NodeKind.isItem = false := ⟨fun _ _ => rfl⟩
  have hnode : Yields (fun t => t.kind?.any NodeKind.isItem = false) (node .error (takeSome fuel stops)) :=
    .of_inner fun s hs => by
      obtain ⟨inner, hinner⟩ := (inferInstance : Bracketed (takeSome fuel stops)).grows _
        (sound_start (grows_flush hs).sound .error)
      exact ⟨inner, hinner, rfl⟩
  obtain ⟨new, hnew, hall⟩ := hnode.yields _ hreport.sound
  exact ⟨new, hreport.trans hnew, hall⟩

-- A file that starts with a closing delimiter has no contents but what is skipped.
theorem run_fileContents_of_closing (hs : s.Sound) (hfuel : s.rest.length < g.fuel)
    (hkind : s.kind? = some .rBrace ∨ s.kind? = some .rParen) :
    (g.fileContents.run s).2 = ((g.skipTo .closingDelimiter []).run s).2.flush := by
  have hseparators : g.separators.run s = ((), s) :=
    run_eatWhile_of_not (by rcases hkind with hkind | hkind <;> rw [hkind] <;> rfl) g.fuel
  have hpackage : g.packageClause.run s = ((), s) := by
    rw [packageClause, run_isAt_bind]
    rcases hkind with hkind | hkind <;> rw [hkind] <;> rfl
  rw [fileContents, run_bind, hseparators, run_bind, hpackage, run_bind]
  exact congrArg Cursor.flush (run_items_of_closing hs hfuel hkind)

theorem grows_fileContents_of_closing (hs : s.Sound) (hfuel : s.rest.length < g.fuel)
    (hkind : s.kind? = some .rBrace ∨ s.kind? = some .rParen) :
    ∃ new, Grows s (g.fileContents.run s).2 new ∧ ∀ t ∈ new, t.kind?.any NodeKind.isItem = false := by
  obtain ⟨new, hnew, hskip⟩ := grows_skipTo hs g.fuel .closingDelimiter []
  have hblank : Blanks fun t => t.kind?.any NodeKind.isItem = false := ⟨fun _ _ => rfl⟩
  rw [run_fileContents_of_closing hs hfuel hkind]
  exact ⟨_, hnew.trans (grows_flush hnew.sound),
    List.forall_mem_append.mpr ⟨hskip, forall_skipped hnew.sound⟩⟩

theorem errors_fileContents_of_closing (hs : s.Sound) (hfuel : s.rest.length < g.fuel)
    (hkind : s.kind? = some .rBrace ∨ s.kind? = some .rParen) :
    (g.fileContents.run s).2.errors = ⟨.closingDelimiter, s.errorRange⟩ :: s.errors := by
  rw [run_fileContents_of_closing hs hfuel hkind, errors_flush]
  exact errors_skipTo g.fuel .closingDelimiter [] s

end Rules

-- The blanks at the start of a text are skipped, line feeds among them: there is no statement yet
-- that one could end.
theorem find_markLineEnds_false {blanks rest : List Token} {t : Token}
    (hblanks : ∀ b ∈ blanks, b.kind.isTrivia = true) (ht : t.kind.isTrivia = false) :
    ((markLineEnds false (blanks ++ t :: rest)).dropWhile (·.skipped)).head? = some ⟨t, false⟩ := by
  induction blanks with
  | nil =>
      have hnewline : t.kind ≠ .newline := fun h => by rw [h] at ht; cases ht
      rw [List.nil_append, markLineEnds, if_neg hnewline, if_neg (by rw [ht]; exact Bool.false_ne_true)]
      rfl
  | cons b blanks ih =>
      have hrest := ih fun b' hb' => hblanks b' (.tail _ hb')
      rw [List.cons_append, markLineEnds]
      split
      · exact hrest
      · rw [if_pos (hblanks b (.head _))]
        exact hrest

theorem current?_startCursor {text : String} {blanks rest : List Token} {t : Token}
    (htext : Token.tokenize text = blanks ++ t :: rest) (hblanks : ∀ b ∈ blanks, b.kind.isTrivia = true)
    (ht : t.kind.isTrivia = false) : (startCursor text).current? = some t := by
  rw [startCursor, Cursor.current?, Cursor.solids, htext, find_markLineEnds_false hblanks ht, Option.map_some]

-- A closing delimiter at the start of a text, behind blanks at most, is all that the text is told
-- to be wrong with. The file has no items, whatever comes behind the delimiter.
theorem parse_of_closing {text : String} {blanks rest : List Token} {t : Token}
    (htext : Token.tokenize text = blanks ++ t :: rest) (hblanks : ∀ b ∈ blanks, b.kind.isTrivia = true)
    (ht : t.kind = .rBrace ∨ t.kind = .rParen) :
    (parse text).errors = [⟨.closingDelimiter, ⟨t.offset, t.stop⟩⟩] ∧ (parse text).tree.items = [] := by
  have hcurrent : (startCursor text).current? = some t :=
    current?_startCursor htext hblanks (by rcases ht with ht | ht <;> rw [ht] <;> rfl)
  let s := (startCursor text).start .sourceFile
  have hs : s.Sound := sound_start (sound_startCursor text) .sourceFile
  have hkind : s.kind? = some .rBrace ∨ s.kind? = some .rParen := by
    have hfirst : s.kind? = some t.kind := congrArg (·.map (·.kind)) hcurrent
    rcases ht with ht | ht
    · exact .inl (ht ▸ hfirst)
    · exact .inr (ht ▸ hfirst)
  have hend := endCursor_eq text
  have hfuel : s.rest.length < enoughFuel (Token.tokenize text) := by
    show (startCursor text).rest.length < _
    rw [length_startCursor, enoughFuel]
    omega
  generalize enoughFuel (Token.tokenize text) = fuel at hend hfuel
  constructor
  · have hrange : s.errorRange = ⟨t.offset, t.stop⟩ := by
      rw [Cursor.errorRange, show s.current? = some t from hcurrent]
    have herrors : (endCursor text).errors = [⟨.closingDelimiter, ⟨t.offset, t.stop⟩⟩] := by
      rw [hend, run_sourceFile, ← hrange]
      exact Rules.errors_fileContents_of_closing (g := ⟨fuel, runRule fuel⟩) hs hfuel hkind
    rw [parse, herrors, List.reverse_singleton]
  · obtain ⟨new, hnew, hall⟩ := Rules.grows_fileContents_of_closing (g := ⟨fuel, runRule fuel⟩) hs hfuel hkind
    have hforest := (hnew.sourceFile (sound_startCursor text)).forest
    rw [← hend, forest_endCursor] at hforest
    have htree : (parse text).tree = .node .sourceFile (startCursor text).offset new := by
      simpa [startCursor] using hforest
    rw [htree, Tree.items, Tree.childrenWith]
    exact List.filter_eq_nil_iff.mpr fun c hc => Bool.eq_false_iff.mp (hall c hc)

end SpriteScript.Syntax
