import SpriteScript.Proofs.Respacing.Steps
import SpriteScript.Proofs.Simulation.Grammar
import SpriteScript.Proofs.Termination.Recursion

-- How long blanks are, and what stands in comments, makes no difference to a parse.
namespace SpriteScript

-- The second row of tokens is the first one with other blanks: in the place of each run of them
-- stands another run, and the other tokens are the same, up to where they stand.
inductive Token.Respaced : List Token → List Token → Prop where
  | nil : Respaced [] []
  | cons {t t' : Token} {rest rest' : List Token} : t.kind.isBlank = false → t.kind = t'.kind →
      t.text = t'.text → Respaced rest rest' → Respaced (t :: rest) (t' :: rest')
  | blanks {run run' rest rest' : List Token} : run ≠ [] → run' ≠ [] → (∀ t ∈ run, t.kind.isBlank = true) →
      (∀ t ∈ run', t.kind.isBlank = true) → Respaced rest rest' → Respaced (run ++ rest) (run' ++ rest')

namespace Syntax

section Rows

theorem markLineEnds_cons_of_blank {t : Token} (h : t.kind.isBlank = true) (canEnd : Bool)
    (rest : List Token) :
    markLineEnds canEnd (t :: rest) = ⟨t, true⟩ :: markLineEnds canEnd rest := by
  have hkind : t.kind ≠ .newline := fun heq => by simp [heq, TokenKind.isBlank] at h
  rw [markLineEnds, if_neg hkind, if_pos (TokenKind.isTrivia_of_isBlank h)]

theorem markLineEnds_append_of_blanks {run : List Token} (h : ∀ t ∈ run, t.kind.isBlank = true)
    (canEnd : Bool) (rest : List Token) :
    markLineEnds canEnd (run ++ rest) = run.map (Lexeme.mk · true) ++ markLineEnds canEnd rest := by
  induction run with
  | nil => rfl
  | cons t run ih =>
      rw [List.cons_append, markLineEnds_cons_of_blank (h t List.mem_cons_self),
        ih fun u hu => h u (List.mem_cons_of_mem t hu), List.map_cons, List.cons_append]

theorem blanksSkipped_markLineEnds (canEnd : Bool) (tokens : List Token) :
    BlanksSkipped (markLineEnds canEnd tokens) := by
  induction tokens generalizing canEnd with
  | nil => exact fun _ hl => absurd hl List.not_mem_nil
  | cons t rest ih =>
      have hcons {l : Lexeme} {lexemes : List Lexeme} (hl : l.isBlank = true → l.skipped = true)
          (h : BlanksSkipped lexemes) : BlanksSkipped (l :: lexemes) :=
        List.forall_mem_cons.mpr ⟨hl, h⟩
      unfold markLineEnds
      split
      case isTrue hkind =>
        exact hcons (fun h => by simp [Lexeme.isBlank, hkind, TokenKind.isBlank] at h) (ih _)
      case isFalse =>
        split
        case isTrue => exact hcons (fun _ => rfl) (ih _)
        case isFalse htrivia => exact hcons (fun h => absurd (TokenKind.isTrivia_of_isBlank h) htrivia) (ih _)

theorem squeeze_append_of_blanks {run : List Lexeme} (hne : run ≠ []) (h : ∀ l ∈ run, l.isBlank = true)
    (rest : List Lexeme) : squeeze (run ++ rest) =
      if rest.head?.any Lexeme.isBlank then squeeze rest
      else ⟨⟨.whitespace, "", 0⟩, true⟩ :: squeeze rest := by
  induction run with
  | nil => exact absurd rfl hne
  | cons l run ih =>
      have hl := h l List.mem_cons_self
      rw [List.cons_append, squeeze_cons_of_blank hl]
      cases run with
      | nil => rw [List.nil_append, Lexeme.plain_of_blank hl]
      | cons m run =>
          have hm := h m (List.mem_cons_of_mem l List.mem_cons_self)
          rw [if_pos (by simpa using hm), ih (List.cons_ne_nil m run) fun k hk =>
            h k (List.mem_cons_of_mem l hk)]

theorem squeeze_markLineEnds {tokens tokens' : List Token} (h : Token.Respaced tokens tokens')
    (canEnd : Bool) :
    squeeze (markLineEnds canEnd tokens) = squeeze (markLineEnds canEnd tokens') := by
  induction h generalizing canEnd with
  | nil => rfl
  | @cons t t' rest rest' hblank hkind htext _ ih =>
      have hsolid (skipped canEnd : Bool) : squeeze (⟨t, skipped⟩ :: markLineEnds canEnd rest) =
          squeeze (⟨t', skipped⟩ :: markLineEnds canEnd rest') := by
        have hl : (Lexeme.mk t skipped).isBlank = false := hblank
        have hl' : (Lexeme.mk t' skipped).isBlank = false := by
          rw [Lexeme.isBlank, ← hkind, hblank]
        rw [squeeze_cons_of_solid hl, squeeze_cons_of_solid hl', ih, Lexeme.plain_of_solid hl,
          Lexeme.plain_of_solid hl']
        simp only [hkind, htext]
      rw [markLineEnds, markLineEnds, ← hkind]
      split
      · exact hsolid _ _
      · split <;> exact hsolid _ _
  | @blanks run run' rest rest' hne hne' hblank hblank' _ ih =>
      have hhead : (markLineEnds canEnd rest).head?.any Lexeme.isBlank =
          (markLineEnds canEnd rest').head?.any Lexeme.isBlank := by
        have hhead := congrArg (fun rest => rest.head?.any Lexeme.isBlank) (ih canEnd)
        simpa only [head?_squeeze, Option.any_map, Function.comp_def, Lexeme.isBlank_plain] using hhead
      rw [markLineEnds_append_of_blanks hblank, markLineEnds_append_of_blanks hblank',
        squeeze_append_of_blanks (by simpa using hne) (List.forall_mem_map.mpr hblank),
        squeeze_append_of_blanks (by simpa using hne') (List.forall_mem_map.mpr hblank'), hhead, ih]

end Rows

section Parsing

theorem respaced_start {tokens tokens' : List Token} {textEnd textEnd' : Nat}
    (hrow : Token.Row 0 tokens textEnd) (hrow' : Token.Row 0 tokens' textEnd')
    (h : Token.Respaced tokens tokens') :
    Cursor.Respaced { rest := markLineEnds false tokens, textEnd }
      { rest := markLineEnds false tokens', textEnd := textEnd' } where
  sound := sound_of_row hrow
  sound' := sound_of_row hrow'
  skipped := blanksSkipped_markLineEnds false tokens
  skipped' := blanksSkipped_markLineEnds false tokens'
  squeezed := squeeze_markLineEnds h false
  last := rfl
  lastSolid := rfl
  literalAllowed := rfl

instance (fuel : Nat) (rule : Rule) : Paired respaced (runRule fuel rule) (runRule fuel rule) := by
  induction fuel generalizing rule with
  | zero => exact inferInstanceAs (Paired respaced (pure ()) (pure ()))
  | succ fuel ih =>
      have : PairedRules respaced ⟨fuel + 1, runRule fuel⟩ ⟨fuel + 1, runRule fuel⟩ := ⟨⟨.inl rfl⟩, ih⟩
      rw [runRule_succ]
      infer_instance

-- More fuel than enough changes nothing.
theorem parseTokens_eq {tokens : List Token} {fuel : Nat} (textEnd : Nat) (h : enoughFuel tokens ≤ fuel) :
    parseTokens tokens textEnd = parseWith ⟨fuel, runRule fuel⟩ tokens textEnd := by
  have henough : tokens.length < enoughFuel tokens := by
    unfold enoughFuel
    omega
  refine parseWith_congr textEnd henough (Nat.lt_of_lt_of_le henough h) fun rule s hs => ?_
  have hdepth : depth rule s < enoughFuel tokens := by
    have := depth_lt rule s
    unfold enoughFuel
    omega
  exact agree_runRule hdepth (Nat.lt_of_lt_of_le hdepth h)

theorem root_of_grows {s t : Cursor} {tree : Tree} (hforest : s.builder.forest = #[]) (h : Grows s t [tree]) :
    t.builder.root = tree := by
  have htree : t.builder.forest = #[tree] := Array.toList_inj.mp (by simpa [hforest] using h.forest)
  simp [Builder.root, htree]

theorem Keeps.map_faults {s s' u u' : Cursor} (h : Keeps s s' u u') (herrors : s.errors = [])
    (herrors' : s'.errors = []) : u.errors.map (·.fault) = u'.errors.map (·.fault) := by
  obtain ⟨found, hfound, hfound'⟩ := h.faults
  rw [Cursor.faults, Cursor.faults, herrors, List.map_nil, List.append_nil] at hfound
  rw [Cursor.faults, Cursor.faults, herrors', List.map_nil, List.append_nil] at hfound'
  rw [hfound, hfound']

theorem Keeps.bare_root {s s' u u' : Cursor} {kind : NodeKind} (h : s.Respaced s')
    (hforest : s.builder.forest = #[]) (hforest' : s'.builder.forest = #[])
    (h' : Keeps (s.start kind) (s'.start kind) u u') :
    u.finish.builder.root.bare = u'.finish.builder.root.bare := by
  rw [start_eq_startAt h.sound, start_eq_startAt h.sound'] at h'
  obtain ⟨new, new', hnew, hnew', hbare⟩ := h'.trees
  rw [root_of_grows hforest (grows_node h.sound (.refl h.sound) hnew),
    root_of_grows hforest' (grows_node h.sound' (.refl h.sound') hnew')]
  simp only [Tree.bare, List.nil_append, hbare]

end Parsing

-- Of the blanks a parse only depends on where there are some. With other runs of blanks in their
-- places the tree is the same apart from them, and so are the errors, in the same order.
theorem parse_respaced {tokens tokens' : List Token} {textEnd textEnd' : Nat}
    (hrow : Token.Row 0 tokens textEnd) (hrow' : Token.Row 0 tokens' textEnd')
    (h : Token.Respaced tokens tokens') :
    (parseTokens tokens textEnd).tree.bare = (parseTokens tokens' textEnd').tree.bare ∧
      (parseTokens tokens textEnd).errors.map (·.fault.message) =
        (parseTokens tokens' textEnd').errors.map (·.fault.message) := by
  obtain ⟨fuel, hfuel, hfuel'⟩ : ∃ fuel, enoughFuel tokens ≤ fuel ∧ enoughFuel tokens' ≤ fuel :=
    ⟨_, Nat.le_max_left _ _, Nat.le_max_right _ _⟩
  rw [parseTokens_eq textEnd hfuel, parseTokens_eq textEnd' hfuel']
  let g : Rules := ⟨fuel, runRule fuel⟩
  have : PairedRules respaced g g :=
    ⟨⟨.inl rfl⟩, fun rule => (inferInstance : Paired respaced (runRule fuel rule) _)⟩
  have hstart := respaced_start hrow hrow' h
  obtain ⟨-, hkeeps⟩ :=
    (inferInstance : Paired respaced g.fileContents g.fileContents).run _ _ (hstart.start .sourceFile)
  refine ⟨hkeeps.bare_root hstart rfl rfl, ?_⟩
  have hmessages := congrArg (fun faults => (faults.map Fault.message).reverse) (hkeeps.map_faults rfl rfl)
  simp only [List.map_map, ← List.map_reverse] at hmessages
  exact hmessages

-- An operand stays the argument of a command when a comment goes before it.
theorem parse_respaced_command :
    let tokens : List Token := [⟨.ident, "f", 0⟩, ⟨.whitespace, " ", 1⟩, ⟨.minus, "-", 2⟩, ⟨.ident, "x", 3⟩]
    let tokens' : List Token :=
      [⟨.ident, "f", 0⟩, ⟨.whitespace, "  ", 1⟩, ⟨.lineComment, "//", 3⟩, ⟨.minus, "-", 5⟩, ⟨.ident, "x", 6⟩]
    Token.Row 0 tokens 4 ∧ Token.Row 0 tokens' 7 ∧ Token.Respaced tokens tokens' ∧
      (parseTokens tokens 4).tree.bare = (parseTokens tokens' 7).tree.bare ∧
      (parseTokens tokens 4).errors.map (·.fault.message) =
      (parseTokens tokens' 7).errors.map (·.fault.message) := by
  intro tokens tokens'
  have hrow : Token.Row 0 tokens 4 := by simp only [tokens, Token.Row, Token.stop]; decide
  have hrow' : Token.Row 0 tokens' 7 := by simp only [tokens', Token.Row, Token.stop]; decide
  have hrespaced : Token.Respaced tokens tokens' :=
    .cons rfl rfl rfl (@Token.Respaced.blanks [⟨.whitespace, " ", 1⟩]
      [⟨.whitespace, "  ", 1⟩, ⟨.lineComment, "//", 3⟩] _ _
      (by simp) (by simp) (by decide) (by decide) (.cons rfl rfl rfl (.cons rfl rfl rfl .nil)))
  exact ⟨hrow, hrow', hrespaced, parse_respaced hrow hrow' hrespaced⟩

end Syntax

end SpriteScript
