import Mathlib.Data.List.Basic
import SpriteScript.Text.LineIndex
import SpriteScript.Proofs.Extent

-- Byte offsets and positions of one text. A position is at or before another one just where the
-- offsets are, so that each of the two ways between them undoes the other as far as it can.
namespace SpriteScript.Text

namespace Position

variable {p q r : Position}

theorem le_iff : p.le q = true ↔ p.line < q.line ∨ p.line = q.line ∧ p.column ≤ q.column := by
  simp [le]

theorem lt_iff : p.lt q = true ↔ p.line < q.line ∨ p.line = q.line ∧ p.column < q.column := by
  simp [lt]

theorem le_refl (p : Position) : p.le p = true := le_iff.mpr (.inr ⟨rfl, Nat.le_refl _⟩)

theorem le_trans (h : p.le q = true) (h' : q.le r = true) : p.le r = true := by
  rw [le_iff] at *
  omega

theorem lt_of_lt_of_le (h : p.lt q = true) (h' : q.le r = true) : p.lt r = true := by
  rw [lt_iff] at *
  rw [le_iff] at h'
  omega

theorem le_of_lt (h : p.lt q = true) : p.le q = true := by
  rw [lt_iff] at h
  rw [le_iff]
  omega

theorem not_lt_of_le (h : p.le q = true) : q.lt p ≠ true := by
  rw [le_iff] at h
  rw [Ne, lt_iff]
  omega

-- The position behind a character.
def advance (p : Position) (c : Char) : Position :=
  if c = '\n' then ⟨p.line + 1, 0⟩ else ⟨p.line, p.column + utf16Size c⟩

theorem lt_advance (p : Position) (c : Char) : p.lt (p.advance c) = true := by
  have hsize : 0 < utf16Size c := by
    unfold utf16Size
    split <;> decide
  rw [lt_iff]
  unfold advance
  split
  · exact .inl (Nat.lt_succ_self _)
  · exact .inr ⟨rfl, Nat.lt_add_of_pos_right hsize⟩

theorem le_foldl_advance (p : Position) (cs : List Char) : p.le (cs.foldl advance p) = true := by
  induction cs generalizing p with
  | nil => exact le_refl p
  | cons c cs ih => exact le_trans (le_of_lt (lt_advance p c)) (ih _)

-- Text without a line feed stays on its line.
theorem foldl_advance_of_line {line : List Char} (h : '\n' ∉ line) (p : Position) :
    line.foldl advance p = ⟨p.line, p.column + utf16Length line⟩ := by
  induction line generalizing p with
  | nil => rfl
  | cons c cs ih =>
      obtain ⟨hc, hcs⟩ := not_or.mp (mt List.mem_cons.mpr h)
      rw [List.foldl_cons, advance, if_neg (Ne.symm hc), ih hcs, utf16Length, Nat.add_assoc]

end Position

section Sizes

theorem byteLength_reverse (cs : List Char) : byteLength cs.reverse = byteLength cs := by
  induction cs with
  | nil => rfl
  | cons c cs ih =>
      rw [List.reverse_cons, byteLength_append, ih, byteLength, byteLength, byteLength, Nat.add_zero,
        Nat.add_comm]

-- The characters of a first part are all that ends within it.
theorem unitsBefore_append (cs rest : List Char) :
    Line.unitsBefore (cs ++ rest) (byteLength cs) = utf16Length cs := by
  induction cs with
  | nil =>
      cases rest with
      | nil => rfl
      | cons c rest =>
          rw [List.nil_append, byteLength, Line.unitsBefore, if_neg (Nat.not_le.mpr c.utf8Size_pos),
            utf16Length]
  | cons c cs ih =>
      rw [List.cons_append, byteLength, Line.unitsBefore, if_pos (Nat.le_add_right _ _),
        Nat.add_sub_cancel_left, ih, utf16Length]

theorem exists_bytesBefore (cs : List Char) (limit : Nat) :
    ∃ before after, cs = before ++ after ∧ Line.bytesBefore cs limit = byteLength before := by
  induction cs generalizing limit with
  | nil => exact ⟨[], [], rfl, rfl⟩
  | cons c cs ih =>
      unfold Line.bytesBefore
      split
      · obtain ⟨before, after, hcs, hbytes⟩ := ih (limit - utf16Size c)
        exact ⟨c :: before, after, by rw [hcs, List.cons_append], by rw [hbytes, byteLength]⟩
      · exact ⟨[], c :: cs, rfl, rfl⟩

theorem bytesBefore_le (cs : List Char) (limit : Nat) : Line.bytesBefore cs limit ≤ byteLength cs := by
  obtain ⟨before, after, hcs, hbytes⟩ := exists_bytesBefore cs limit
  rw [hbytes, hcs, byteLength_append]
  exact Nat.le_add_right _ _

-- A first part lies before a column just where its bytes lie before the offset of the column.
theorem le_bytesBefore_iff (cs rest : List Char) (limit : Nat) :
    byteLength cs ≤ Line.bytesBefore (cs ++ rest) limit ↔ utf16Length cs ≤ limit := by
  induction cs generalizing limit with
  | nil => exact iff_of_true (Nat.zero_le _) (Nat.zero_le _)
  | cons c cs ih =>
      have hpos : 0 < c.utf8Size := c.utf8Size_pos
      rw [List.cons_append, byteLength, Line.bytesBefore, utf16Length]
      split
      case isTrue hfits =>
        have hrest := ih (limit - utf16Size c)
        omega
      case isFalse hlong => omega

end Sizes

section Lines

-- A text is one line, or a line with a line feed and a text behind it.
theorem line_induction {P : List Char → Prop} (last : ∀ line, '\n' ∉ line → P line)
    (more : ∀ line rest, '\n' ∉ line → P rest → P (line ++ '\n' :: rest)) (cs : List Char) : P cs := by
  induction hlength : cs.length using Nat.strong_induction_on generalizing cs with
  | _ n ih =>
      by_cases hfeed : '\n' ∈ cs
      · obtain ⟨line, rest, rfl, hline⟩ := List.eq_append_cons_of_mem hfeed
        refine more line rest hline (ih rest.length ?_ rest rfl)
        rw [← hlength, List.length_append, List.length_cons]
        omega
      · exact last cs hfeed

variable {line rest pre suf : List Char} (hline : '\n' ∉ line) (start : Nat) (pending : List Char)

include hline

omit hline in
theorem splitLines_cons {c : Char} (hc : c ≠ '\n') (cs : List Char) :
    splitLines start pending (c :: cs) = splitLines start (c :: pending) cs := by
  rw [splitLines]
  exact hc

theorem splitLines_append :
    splitLines start pending (line ++ rest) = splitLines start (line.reverse ++ pending) rest := by
  induction line generalizing pending with
  | nil => rfl
  | cons c cs ih =>
      obtain ⟨hc, hcs⟩ := not_or.mp (mt List.mem_cons.mpr hline)
      rw [List.cons_append, splitLines_cons start pending (Ne.symm hc), ih hcs, List.reverse_cons,
        List.append_assoc, List.singleton_append]

theorem splitLines_last : splitLines start [] line = [⟨start, line⟩] := by
  have hsplit : splitLines start [] (line ++ []) = splitLines start (line.reverse ++ []) [] :=
    splitLines_append hline start []
  rw [List.append_nil, List.append_nil] at hsplit
  rw [hsplit, splitLines, List.reverse_reverse]

theorem splitLines_more : splitLines start [] (line ++ '\n' :: rest) =
    ⟨start, line⟩ :: splitLines (start + byteLength line + 1) [] rest := by
  rw [splitLines_append hline, List.append_nil, splitLines, List.reverse_reverse, byteLength_reverse]

omit hline in
theorem byteLength_line_append (line rest : List Char) :
    byteLength (line ++ '\n' :: rest) = byteLength line + 1 + byteLength rest := by
  rw [byteLength_append, byteLength]
  exact (Nat.add_assoc _ _ _).symm

theorem foldl_line_append (number : Nat) : (line ++ '\n' :: rest).foldl Position.advance ⟨number, 0⟩ =
    rest.foldl Position.advance ⟨number + 1, 0⟩ := by
  rw [List.foldl_append, Position.foldl_advance_of_line hline, List.foldl_cons, Position.advance, if_pos rfl]

-- Of a text that has a line feed behind the first line, a first part ends in that line or behind it.
theorem prefix_cases (h : line ++ '\n' :: rest = pre ++ suf) :
    (∃ behind, line = pre ++ behind) ∨ ∃ pre', pre = line ++ '\n' :: pre' ∧ rest = pre' ++ suf := by
  rcases List.append_eq_append_iff.mp h with ⟨behind, rfl, hbehind⟩ | ⟨behind, rfl, -⟩
  · cases behind with
    | nil => exact .inl ⟨[], by rw [List.append_nil, List.append_nil]⟩
    | cons c pre' =>
        obtain ⟨rfl, hrest⟩ := List.cons.inj hbehind
        exact .inr ⟨pre', rfl, hrest⟩
  · exact .inl ⟨behind, rfl⟩

end Lines

section Conversions

variable {start number : Nat} {cs pre suf : List Char} {line : Line} {rest : List Line}

theorem splitLines_ne_nil (start : Nat) (cs : List Char) : splitLines start [] cs ≠ [] := by
  induction cs using line_induction with
  | last l hl =>
      rw [splitLines_last hl]
      exact List.cons_ne_nil _ _
  | more l cs hl _ =>
      rw [splitLines_more hl]
      exact List.cons_ne_nil _ _

-- The first line starts where the text does.
theorem start_eq_of_splitLines (h : splitLines start [] cs = line :: rest) : line.start = start := by
  induction cs using line_induction with
  | last l hl =>
      rw [splitLines_last hl] at h
      cases h
      rfl
  | more l cs hl _ =>
      rw [splitLines_more hl] at h
      cases h
      rfl

-- Where a first part of one line ends.
theorem column_of_line {l behind : List Char} (base number : Nat) (hl : '\n' ∉ l) (hpre : l = pre ++ behind) :
    (⟨number, Line.columnAt ⟨base, l⟩ (base + byteLength pre)⟩ : Position) =
      pre.foldl Position.advance ⟨number, 0⟩ := by
  rw [hpre, List.mem_append, not_or] at hl
  rw [Position.foldl_advance_of_line hl.1, Line.columnAt, Nat.add_sub_cancel_left, hpre, unitsBefore_append,
    Nat.zero_add]

-- The end of a first part is behind its characters, counted from the start of the text.
theorem locate_splitLines (hlines : splitLines start [] cs = line :: rest) (hcs : cs = pre ++ suf) :
    LineIndex.locate (start + byteLength pre) number line rest = pre.foldl Position.advance ⟨number, 0⟩ := by
  induction cs using line_induction generalizing start number pre line rest with
  | last l hl =>
      rw [splitLines_last hl] at hlines
      cases hlines
      exact column_of_line start number hl hcs
  | more l cs hl ih =>
      rw [splitLines_more hl] at hlines
      obtain ⟨rfl, hnext⟩ := List.cons.inj hlines
      obtain ⟨next, others, rfl⟩ := List.exists_cons_of_ne_nil (hnext ▸ splitLines_ne_nil _ cs)
      have hstart := start_eq_of_splitLines hnext
      rw [LineIndex.locate, hstart]
      rcases prefix_cases hl hcs with ⟨behind, hpre⟩ | ⟨pre', rfl, hcs'⟩
      · have hle : byteLength pre ≤ byteLength l := by
          rw [hpre, byteLength_append]
          exact Nat.le_add_right _ _
        rw [if_neg (by omega)]
        exact column_of_line start number hl hpre
      · rw [byteLength_line_append, if_pos (by omega), foldl_line_append hl, ← Nat.add_assoc, ← Nat.add_assoc]
        exact ih hnext hcs'

-- The offset of a column in a list of lines, and `stop` behind the last of them.
def offsetIn (stop : Nat) (lines : List Line) (row column : Nat) : Nat :=
  match lines[row]? with
  | some line => line.offsetAt column
  | none => stop

theorem offsetIn_cons_succ (stop : Nat) (l : Line) (lines : List Line) (row column : Nat) :
    offsetIn stop (l :: lines) (row + 1) column = offsetIn stop lines row column := rfl

-- It ends a first part of the text.
theorem exists_offsetIn (start : Nat) (cs : List Char) (row column : Nat) : ∃ pre suf, cs = pre ++ suf ∧
    offsetIn (start + byteLength cs) (splitLines start [] cs) row column = start + byteLength pre := by
  induction cs using line_induction generalizing start row with
  | last l hl =>
      rw [splitLines_last hl]
      cases row with
      | zero =>
          obtain ⟨pre, suf, hcs, hbytes⟩ := exists_bytesBefore l column
          exact ⟨pre, suf, hcs, congrArg (start + ·) hbytes⟩
      | succ row => exact ⟨l, [], (List.append_nil l).symm, rfl⟩
  | more l cs hl ih =>
      rw [splitLines_more hl]
      cases row with
      | zero =>
          obtain ⟨pre, suf, hcs, hbytes⟩ := exists_bytesBefore l column
          exact ⟨pre, suf ++ '\n' :: cs, by rw [hcs, List.append_assoc], congrArg (start + ·) hbytes⟩
      | succ row =>
          obtain ⟨pre, suf, rfl, hoffset⟩ := ih (start + byteLength l + 1) row
          refine ⟨l ++ '\n' :: pre, suf, by rw [List.append_assoc, List.cons_append], ?_⟩
          rw [byteLength_line_append, byteLength_line_append]
          simp only [← Nat.add_assoc]
          exact hoffset

-- It is at or behind the first parts whose ends are at or before the column.
theorem le_offsetIn_iff (start number row column : Nat) (hcs : cs = pre ++ suf) :
    start + byteLength pre ≤ offsetIn (start + byteLength cs) (splitLines start [] cs) row column ↔
      (pre.foldl Position.advance ⟨number, 0⟩).le ⟨number + row, column⟩ = true := by
  induction cs using line_induction generalizing start number row pre with
  | last l hl =>
      rw [splitLines_last hl]
      rw [hcs, List.mem_append, not_or] at hl
      rw [Position.foldl_advance_of_line hl.1, Position.le_iff]
      cases row with
      | zero =>
          have hcolumn := le_bytesBefore_iff pre suf column
          rw [← hcs] at hcolumn
          simp only [offsetIn, List.getElem?_cons_zero, Line.offsetAt]
          omega
      | succ row =>
          have hwhole : byteLength pre ≤ byteLength l := by
            rw [hcs, byteLength_append]
            exact Nat.le_add_right _ _
          simp only [offsetIn, List.getElem?_cons_succ, List.getElem?_nil]
          omega
  | more l cs hl ih =>
      have hend : start + byteLength (l ++ '\n' :: cs) = start + byteLength l + 1 + byteLength cs := by
        rw [byteLength_line_append]
        omega
      rw [splitLines_more hl, hend]
      rcases prefix_cases hl hcs with ⟨behind, hpre⟩ | ⟨pre', rfl, hcs'⟩
      · have hpl : '\n' ∉ pre := fun h => hl (hpre ▸ List.mem_append_left behind h)
        rw [Position.foldl_advance_of_line hpl, Position.le_iff]
        cases row with
        | zero =>
            have hcolumn := le_bytesBefore_iff pre behind column
            rw [← hpre] at hcolumn
            simp only [offsetIn, List.getElem?_cons_zero, Line.offsetAt]
            omega
        | succ row =>
            have hwhole : byteLength pre ≤ byteLength l := by
              rw [hpre, byteLength_append]
              exact Nat.le_add_right _ _
            obtain ⟨front, back, -, hoffset⟩ := exists_offsetIn (start + byteLength l + 1) cs row column
            simp only [offsetIn_cons_succ, hoffset]
            omega
      · rw [foldl_line_append hl, byteLength_line_append]
        cases row with
        | zero =>
            have hline : Line.bytesBefore l column ≤ byteLength l := bytesBefore_le l column
            have hrow := Position.le_foldl_advance ⟨number + 1, 0⟩ pre'
            refine iff_of_false ?_ ?_
            · simp only [offsetIn, List.getElem?_cons_zero, Line.offsetAt]
              omega
            · simp only [Position.le_iff] at hrow ⊢
              omega
        | succ row =>
            have hrest := ih (start + byteLength l + 1) (number + 1) row hcs'
            rw [offsetIn_cons_succ, Nat.add_comm row 1, ← Nat.add_assoc number, ← hrest, ← Nat.add_assoc,
              ← Nat.add_assoc]

end Conversions

namespace LineIndex

variable {text : String} {o o' : Nat} {p q : Position}

theorem length_eq (text : String) : text.utf8ByteSize = byteLength text.toList := by
  rw [← Token.utf8ByteSize_ofList, String.ofList_toList]

-- The boundaries between the characters of a text are the ends of its first parts.
theorem isValid_iff :
    String.Pos.Raw.IsValid text ⟨o⟩ ↔ ∃ pre suf, text.toList = pre ++ suf ∧ o = byteLength pre := by
  rw [String.Pos.Raw.isValid_iff_exists_append]
  constructor
  · rintro ⟨first, second, rfl, ho⟩
    refine ⟨first.toList, second.toList, String.toList_append, ?_⟩
    rw [← length_eq]
    exact congrArg String.Pos.Raw.byteIdx ho
  · rintro ⟨pre, suf, htext, rfl⟩
    refine ⟨String.ofList pre, String.ofList suf, ?_, ?_⟩
    · rw [← String.ofList_append, ← htext, String.ofList_toList]
    · rw [← Token.utf8ByteSize_ofList]
      rfl

theorem position_of_first {pre suf : List Char} (htext : text.toList = pre ++ suf) :
    (ofText text).position (byteLength pre) = pre.foldl Position.advance ⟨0, 0⟩ := by
  obtain ⟨line, rest, hlines⟩ := List.exists_cons_of_ne_nil (splitLines_ne_nil 0 text.toList)
  have hplace : LineIndex.locate (0 + byteLength pre) 0 line rest = pre.foldl Position.advance ⟨0, 0⟩ :=
    locate_splitLines hlines htext
  rw [Nat.zero_add] at hplace
  rw [position, ofText, hlines]
  exact hplace

theorem offset_eq (text : String) (p : Position) : (ofText text).offset p =
    offsetIn (0 + byteLength text.toList) (splitLines 0 [] text.toList) p.line p.column := by
  rw [Nat.zero_add, ← length_eq, offset, offsetIn, ofText, List.getElem?_toArray]
  rfl

theorem isValid_offset (text : String) (p : Position) :
    String.Pos.Raw.IsValid text ⟨(ofText text).offset p⟩ := by
  obtain ⟨pre, suf, htext, hoffset⟩ := exists_offsetIn 0 text.toList p.line p.column
  exact isValid_iff.mpr ⟨pre, suf, htext, by rw [offset_eq, hoffset, Nat.zero_add]⟩

theorem le_length (h : String.Pos.Raw.IsValid text ⟨o⟩) : o ≤ (ofText text).length := by
  obtain ⟨pre, suf, htext, rfl⟩ := isValid_iff.mp h
  rw [length, ofText, length_eq, htext, byteLength_append]
  exact Nat.le_add_right _ _

-- A boundary is at or before the offset of a position just where it has its own position at or before it.
theorem le_offset_iff (h : String.Pos.Raw.IsValid text ⟨o⟩) (p : Position) :
    o ≤ (ofText text).offset p ↔ ((ofText text).position o).le p = true := by
  obtain ⟨pre, suf, htext, rfl⟩ := isValid_iff.mp h
  have hplace := le_offsetIn_iff 0 0 p.line p.column htext
  simp only [Nat.zero_add] at hplace
  rw [position_of_first htext, offset_eq, Nat.zero_add, hplace]

theorem position_lt (h : String.Pos.Raw.IsValid text ⟨o⟩) (h' : String.Pos.Raw.IsValid text ⟨o'⟩)
    (hlt : o < o') : ((ofText text).position o).lt ((ofText text).position o') = true := by
  obtain ⟨pre, suf, htext, rfl⟩ := isValid_iff.mp h
  obtain ⟨pre', suf', htext', rfl⟩ := isValid_iff.mp h'
  rw [position_of_first htext, position_of_first htext']
  rcases List.append_eq_append_iff.mp (htext.symm.trans htext') with ⟨between, rfl, -⟩ | ⟨between, rfl, -⟩
  · cases between with
    | nil =>
        rw [List.append_nil] at hlt
        exact absurd hlt (Nat.lt_irrefl _)
    | cons c cs =>
        rw [List.foldl_append, List.foldl_cons]
        exact Position.lt_of_lt_of_le (Position.lt_advance _ c) (Position.le_foldl_advance _ cs)
  · rw [byteLength_append] at hlt
    exact absurd hlt (Nat.not_lt_of_le (Nat.le_add_right _ _))

theorem position_lt_iff (h : String.Pos.Raw.IsValid text ⟨o⟩) (h' : String.Pos.Raw.IsValid text ⟨o'⟩) :
    o < o' ↔ ((ofText text).position o).lt ((ofText text).position o') = true := by
  refine ⟨position_lt h h', fun hlt => ?_⟩
  by_contra hle
  rcases Nat.eq_or_lt_of_le (Nat.le_of_not_lt hle) with rfl | hback
  · exact Position.not_lt_of_le (Position.le_refl _) hlt
  · exact Position.not_lt_of_le (Position.le_of_lt (position_lt h' h hback)) hlt

theorem offset_position (h : String.Pos.Raw.IsValid text ⟨o⟩) :
    (ofText text).offset ((ofText text).position o) = o := by
  have hback := isValid_offset text ((ofText text).position o)
  refine (Nat.eq_or_lt_of_le ((le_offset_iff h _).mpr (Position.le_refl _))).elim Eq.symm fun hlt => ?_
  have hle := (le_offset_iff hback ((ofText text).position o)).mp (Nat.le_refl _)
  exact absurd (position_lt h hback hlt) (Position.not_lt_of_le hle)

theorem position_offset_le (text : String) (p : Position) :
    ((ofText text).position ((ofText text).offset p)).le p = true :=
  (le_offset_iff (isValid_offset text p) p).mp (Nat.le_refl _)

theorem offset_mono (text : String) (h : p.le q = true) : (ofText text).offset p ≤ (ofText text).offset q :=
  (le_offset_iff (isValid_offset text p) q).mpr (Position.le_trans (position_offset_le text p) h)

theorem position_offset_eq_iff (text : String) (p : Position) :
    (ofText text).position ((ofText text).offset p) = p ↔
      ∃ o, String.Pos.Raw.IsValid text ⟨o⟩ ∧ (ofText text).position o = p := by
  constructor
  · intro h
    exact ⟨_, isValid_offset text p, h⟩
  · rintro ⟨o, ho, rfl⟩
    rw [offset_position ho]

-- Offsets and positions are a monotone pair: from a boundary there and back is the boundary, and from a
-- position there and back is the nearest position of a boundary at or before it.
theorem offset_position_monotone_pair (text : String) :
    let ix := ofText text
    (∀ o, String.Pos.Raw.IsValid text ⟨o⟩ → ix.offset (ix.position o) = o) ∧
    (∀ o o', String.Pos.Raw.IsValid text ⟨o⟩ → String.Pos.Raw.IsValid text ⟨o'⟩ →
      (o < o' ↔ (ix.position o).lt (ix.position o') = true)) ∧
    (∀ p, String.Pos.Raw.IsValid text ⟨ix.offset p⟩ ∧ ix.offset p ≤ ix.length) ∧
    (∀ p q : Position, p.le q = true → ix.offset p ≤ ix.offset q) ∧
    ∀ p, (ix.position (ix.offset p)).le p = true ∧
      (ix.position (ix.offset p) = p ↔ ∃ o, String.Pos.Raw.IsValid text ⟨o⟩ ∧ ix.position o = p) :=
  ⟨fun _ ho => offset_position ho, fun _ _ ho ho' => position_lt_iff ho ho',
    fun p => ⟨isValid_offset text p, le_length (isValid_offset text p)⟩, fun _ _ h => offset_mono text h,
    fun p => ⟨position_offset_le text p, position_offset_eq_iff text p⟩⟩

-- A pair of surrogates, then a line that ends in a carriage return and a line feed, then two bytes.
theorem offset_position_monotone_pair_surrogates :
    let ix := ofText "a😀\r\nß"
    ix.offset (ix.position 5) = 5 ∧ (ix.position 5).lt (ix.position 7) = true ∧
      ix.offset ⟨0, 2⟩ ≤ ix.offset ⟨0, 3⟩ ∧
      ix.position 5 = ⟨0, 3⟩ ∧ ix.offset ⟨0, 2⟩ = 1 ∧ ix.offset ⟨3, 9⟩ = 9 := by
  have hvalid (o : Nat) (h : (String.Pos.Raw.mk o).isValid "a😀\r\nß" = true) :
      String.Pos.Raw.IsValid "a😀\r\nß" ⟨o⟩ := String.Pos.Raw.isValid_eq_true_iff.mp h
  have hpair := offset_position_monotone_pair "a😀\r\nß"
  exact ⟨hpair.1 5 (hvalid 5 (by decide +kernel)),
    (hpair.2.1 5 7 (hvalid 5 (by decide +kernel)) (hvalid 7 (by decide +kernel))).mp (by decide),
    hpair.2.2.2.1 ⟨0, 2⟩ ⟨0, 3⟩ (by decide), by decide +kernel, by decide +kernel, by decide +kernel⟩

end LineIndex

-- The lines of a text share it out: what is shown of them, and what stands behind each, is all of it.

-- What is not shown of a line or of the last line of a text.
def returnAtEnd (cs : List Char) : List Char := if cs.getLast? = some '\r' then ['\r'] else []

-- What may end a line that is not the last one.
def IsLineEnd (cs : List Char) : Prop := cs = ['\n'] ∨ cs = ['\r', '\n']

theorem Line.shown_append_returnAtEnd (l : Line) : l.shown ++ returnAtEnd l.chars = l.chars := by
  unfold shown returnAtEnd
  split
  case isTrue h =>
    obtain ⟨before, hbefore⟩ := List.getLast?_eq_some_iff.mp h
    rw [hbefore, List.dropLast_concat]
  case isFalse => exact List.append_nil _

theorem isLineEnd_returnAtEnd (cs : List Char) : IsLineEnd (returnAtEnd cs ++ ['\n']) := by
  unfold returnAtEnd
  split
  · exact .inr rfl
  · exact .inl rfl

theorem returnAtEnd_more (line rest : List Char) : returnAtEnd (line ++ '\n' :: rest) = returnAtEnd rest := by
  unfold returnAtEnd
  rw [List.getLast?_append_cons]
  cases rest with
  | nil => rfl
  | cons c rest => rw [List.getLast?_cons_cons]

-- The lines are shown one by one with what ends them. That makes up the text.
theorem exists_lineEnds (start : Nat) (cs : List Char) : ∃ ends : List (List Char),
    ends.length = (splitLines start [] cs).length ∧ (∀ e ∈ ends.dropLast, IsLineEnd e) ∧
      ends.getLast? = some (returnAtEnd cs) ∧
      (List.zipWith (fun l e => l.shown ++ e) (splitLines start [] cs) ends).flatten = cs := by
  induction cs using line_induction generalizing start with
  | last l hl =>
      rw [splitLines_last hl]
      refine ⟨[returnAtEnd l], rfl, by simp, rfl, ?_⟩
      rw [List.zipWith_cons_cons, List.zipWith_nil_left, List.flatten_singleton]
      exact Line.shown_append_returnAtEnd ⟨start, l⟩
  | more l cs hl ih =>
      rw [splitLines_more hl]
      obtain ⟨ends, hlength, hends, hlast, hwhole⟩ := ih (start + byteLength l + 1)
      have hne : ends ≠ [] := by
        rintro rfl
        cases hlast
      refine ⟨(returnAtEnd l ++ ['\n']) :: ends, ?_, ?_, ?_, ?_⟩
      · rw [List.length_cons, List.length_cons, hlength]
      · rw [List.dropLast_cons_of_ne_nil hne, List.forall_mem_cons]
        exact ⟨isLineEnd_returnAtEnd l, hends⟩
      · rw [returnAtEnd_more, ← hlast, List.getLast?_cons_of_ne_nil hne]
      · rw [List.zipWith_cons_cons, List.flatten_cons, hwhole, ← List.append_assoc,
          Line.shown_append_returnAtEnd ⟨start, l⟩, List.append_assoc, List.singleton_append]

theorem filterMap_getElem? {α β : Type} (l : List α) (f : α → β) :
    (List.range l.length).filterMap (fun n => l[n]?.map f) = l.map f := by
  induction l with
  | nil => rfl
  | cons x xs ih =>
      rw [List.length_cons, List.range_succ_eq_map, List.filterMap_cons, List.filterMap_map,
        List.map_cons, ← ih]
      rfl

namespace LineIndex

theorem lineText?_eq_none_iff (ix : LineIndex) (n : Nat) : ix.lineText? n = none ↔ ix.lineCount ≤ n := by
  rw [lineText?, Option.map_eq_none_iff, Array.getElem?_eq_none_iff, lineCount]

theorem filterMap_lineText? (ix : LineIndex) : (List.range ix.lineCount).filterMap ix.lineText? =
    ix.lines.toList.map fun l => String.ofList l.shown := by
  rw [← filterMap_getElem?, lineCount, Array.length_toList]
  simp only [Array.getElem?_toList]
  rfl

-- There is a line for every number below the count, and only for these. The texts of the lines are the
-- text without what ends them, a line feed with or without a carriage return before it. Behind the last
-- line nothing is left but a carriage return, if the text ends with one.
theorem lines_partition (text : String) :
    let ix := ofText text
    let texts := (List.range ix.lineCount).filterMap ix.lineText?
    texts.length = ix.lineCount ∧ (∀ n, ix.lineText? n = none ↔ ix.lineCount ≤ n) ∧
      ∃ ends : List String, ends.length = ix.lineCount ∧ (∀ e ∈ ends.dropLast, IsLineEnd e.toList) ∧
        ends.getLast? = some (String.ofList (returnAtEnd text.toList)) ∧
        String.join (List.zipWith (· ++ ·) texts ends) = text := by
  obtain ⟨ends, hlength, hends, hlast, hwhole⟩ := exists_lineEnds 0 text.toList
  have hlines : (ofText text).lines.toList = splitLines 0 [] text.toList := rfl
  have hcount : (ofText text).lineCount = (splitLines 0 [] text.toList).length := rfl
  refine ⟨?_, lineText?_eq_none_iff _, ends.map String.ofList, ?_, ?_, ?_, ?_⟩
  · rw [filterMap_lineText?, List.length_map, hlines, hcount]
  · rw [List.length_map, hlength, hcount]
  · rw [← List.map_dropLast, List.forall_mem_map]
    intro e he
    rw [String.toList_ofList]
    exact hends e he
  · rw [List.getLast?_map, hlast, Option.map_some]
  · apply String.toList_injective
    rw [filterMap_lineText?, hlines, String.toList_join, List.flatMap_def, List.zipWith_map, List.map_zipWith]
    simp only [String.toList_append, String.toList_ofList]
    exact hwhole

end LineIndex

end SpriteScript.Text
