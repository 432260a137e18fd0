import Mathlib
import SpriteScript.Editor.Slot
import SpriteScript.Proofs.Program.Compile
import SpriteScript.Proofs.Text.Positions

-- The slots of a document are places of expressions that follow each other: no two of them overlap.
namespace SpriteScript

namespace Tree

variable {t c : Tree}

theorem tokens_ne_nil {s : Token} (h : s ∈ t.tokens) : t.tokens ≠ [] := List.ne_nil_of_mem h

-- Parentheses only add tokens.
theorem tokens_unparen_subset : (t : Tree) → t.unparen.tokens ⊆ t.tokens
  | .token _ => by simp [unparen]
  | .node kind offset children => by
      unfold unparen
      split
      case h_1 heq =>
          cases heq
          cases hinner : unparen.inner? children with
          | none => exact List.Subset.refl _
          | some u =>
              rw [tokens]
              exact inner children u hinner
      case h_2 => exact List.Subset.refl _
where
  inner : (ts : List Tree) → ∀ u, unparen.inner? ts = some u → u.tokens ⊆ tokens.tokensOfAll ts
    | [], _, h => nomatch h
    | t :: rest, u, h => by
        rw [unparen.inner?] at h
        rw [tokens.tokensOfAll]
        split at h
        · obtain rfl := Option.some.inj h
          exact List.Subset.trans (tokens_unparen_subset t) (List.subset_append_left _ _)
        · exact List.Subset.trans (inner rest u h) (List.subset_append_right _ _)

theorem LiesIn.start_lt_stop {text : String} (h : t.LiesIn text) (hne : t.tokens ≠ []) :
    t.start < t.stop := by
  obtain ⟨before, after, stop, -, hcovers⟩ := h
  have hlength := hcovers.row.length_le
  have hpos := List.length_pos_iff.mpr hne
  rw [hcovers.start_eq, hcovers.stop_eq]
  omega

end Tree

namespace Text.Position

variable {p q r : Position}

theorem lt_trans (h : p.lt q = true) (h' : q.lt r = true) : p.lt r = true := lt_of_lt_of_le h (le_of_lt h')

theorem lt_trichotomy (p q : Position) : p.lt q = true ∨ p = q ∨ q.lt p = true := by
  obtain ⟨line, column⟩ := p
  obtain ⟨line', column'⟩ := q
  simp only [lt_iff, mk.injEq]
  omega

end Text.Position

namespace Editor

namespace InputSlot

variable {a b c : InputSlot}

theorem le_iff : a.le b = true ↔
    a.span.start.lt b.span.start = true ∨ a.span.start = b.span.start ∧ a.rank ≤ b.rank := by
  simp [le]

theorem le_trans (a b c : InputSlot) (h : a.le b = true) (h' : b.le c = true) : a.le c = true := by
  rw [le_iff] at *
  rcases h with h | ⟨hstart, hrank⟩
  · rcases h' with h' | ⟨hstart', -⟩
    · exact .inl (Text.Position.lt_trans h h')
    · exact .inl (hstart' ▸ h)
  · rcases h' with h' | ⟨hstart', hrank'⟩
    · exact .inl (hstart ▸ h')
    · exact .inr ⟨hstart.trans hstart', Nat.le_trans hrank hrank'⟩

theorem le_total (a b : InputSlot) : (a.le b || b.le a) = true := by
  rw [Bool.or_eq_true, le_iff, le_iff]
  rcases Text.Position.lt_trichotomy a.span.start b.span.start with h | h | h
  · exact .inl (.inl h)
  · rcases Nat.le_total a.rank b.rank with hrank | hrank
    · exact .inl (.inr ⟨h, hrank⟩)
    · exact .inr (.inr ⟨h.symm, hrank⟩)
  · exact .inr (.inl h)

end InputSlot

-- What an editor shows of an expression it reads off tokens.

section Values

variable {d : Document} {t : Tree} {input : Input}

theorem tokens_ne_nil_of_ident? {s : Token} (h : t.ident? = some s) : t.tokens ≠ [] :=
  Tree.tokens_ne_nil (Tree.mem_tokens_of_ident? h)

theorem tokens_ne_nil_of_literal (h : Input.ofLiteral? d t = some input) : t.tokens ≠ [] := by
  unfold Input.ofLiteral? at h
  obtain ⟨_, -, h⟩ := Option.bind_eq_some_iff.mp h
  obtain ⟨_, -, h⟩ := Option.bind_eq_some_iff.mp h
  obtain ⟨_, hkind, -⟩ := Option.bind_eq_some_iff.mp h
  obtain ⟨s, hs, -⟩ := Option.bind_eq_some_iff.mp hkind
  exact Tree.tokens_ne_nil (Tree.childTokens_subset t (List.mem_of_find?_eq_some hs))

theorem tokens_ne_nil_of_name (h : Input.ofName? d t = some input) : t.tokens ≠ [] := by
  unfold Input.ofName? at h
  obtain ⟨_, hident, -⟩ := Option.bind_eq_some_iff.mp h
  exact tokens_ne_nil_of_ident? hident

theorem tokens_ne_nil_of_unary (h : Input.ofUnary? d t = some input) : t.tokens ≠ [] := by
  unfold Input.ofUnary? at h
  obtain ⟨_, hop, -⟩ := Option.bind_eq_some_iff.mp h
  obtain ⟨s, hs, -⟩ := Option.map_eq_some_iff.mp hop
  exact Tree.tokens_ne_nil (List.mem_of_mem_head? hs)

theorem tokens_ne_nil_of_colorCall (h : Input.ofColorCall? d t = some input) : t.tokens ≠ [] := by
  unfold Input.ofColorCall? at h
  obtain ⟨callee, hcallee, h⟩ := Option.bind_eq_some_iff.mp h
  dsimp only at h
  split at h
  · cases h
  · obtain ⟨s, hident, -⟩ := Option.bind_eq_some_iff.mp h
    have hs := Tree.tokens_unparen_subset callee (Tree.mem_tokens_of_ident? hident)
    exact Tree.tokens_ne_nil (Tree.mem_tokens_child (List.mem_of_find?_eq_some hcallee) hs)

theorem tokens_ne_nil_of_unparen (h : t.unparen.tokens ≠ []) : t.tokens ≠ [] := by
  obtain ⟨s, hs⟩ := List.exists_mem_of_ne_nil _ h
  exact Tree.tokens_ne_nil (Tree.tokens_unparen_subset t hs)

theorem tokens_ne_nil_of_input (h : Input.ofExpr? d t = some input) : t.tokens ≠ [] := by
  refine tokens_ne_nil_of_unparen ?_
  unfold Input.ofExpr? at h
  dsimp only at h
  split at h
  · exact tokens_ne_nil_of_literal h
  · exact tokens_ne_nil_of_name h
  · exact tokens_ne_nil_of_unary h
  · exact tokens_ne_nil_of_colorCall h
  · cases h

end Values

-- The place of a slot is an expression that holds a token.
theorem place_of_slotAt? {d : Document} {place : Place} {slot : InputSlot} (h : slotAt? d place = some slot) :
    place.tree.isExpr = true ∧ place.tree.tokens ≠ [] ∧ slot.span = d.span place.tree.range := by
  obtain ⟨kind, hkind, hslot⟩ := Option.bind_eq_some_iff.mp h
  refine ⟨?_, ?_⟩
  · unfold slotKind? at hkind
    split at hkind
    · cases hkind
    case isFalse hexpr => simpa using hexpr
  · cases kind with
    | value =>
        obtain ⟨input, hinput, rfl⟩ := Option.map_eq_some_iff.mp hslot
        exact ⟨tokens_ne_nil_of_input hinput, rfl⟩
    | address =>
        simp only [addressSlot?] at hslot
        split at hslot
        · cases hslot
        · obtain ⟨s, hident, hslot⟩ := Option.bind_eq_some_iff.mp hslot
          obtain ⟨id, -, hslot⟩ := Option.bind_eq_some_iff.mp hslot
          refine ⟨tokens_ne_nil_of_unparen (tokens_ne_nil_of_ident? hident), ?_⟩
          split at hslot
          · cases hslot
            rfl
          · cases hslot

-- Ranges without a common byte.
def Apart (a b : Text.ByteRange × InputSlot) : Prop := a.1.stop ≤ b.1.start ∨ b.1.stop ≤ a.1.start

-- What is taken for one range does not overlap what was taken before.
theorem exists_taken {P : Text.ByteRange × InputSlot → Prop} (d : Document) (places : List Place)
    {taken : List (Text.ByteRange × InputSlot)} (hapart : taken.Pairwise Apart) (htaken : ∀ x ∈ taken, P x)
    (hplaces : ∀ place ∈ places, ∀ slot, slotAt? d place = some slot → P (place.tree.range, slot)) :
    ∃ all : List (Text.ByteRange × InputSlot), takeSlots d taken places = all.map (·.2) ∧ all.Pairwise Apart ∧
      ∀ x ∈ all, P x := by
  induction places generalizing taken with
  | nil =>
      refine ⟨taken.reverse, rfl, List.pairwise_reverse.mpr (hapart.imp Or.symm), fun x hx => ?_⟩
      exact htaken x (List.mem_reverse.mp hx)
  | cons place rest ih =>
      obtain ⟨hplace, hrest⟩ := List.forall_mem_cons.mp hplaces
      rw [takeSlots]
      dsimp only
      split
      case isTrue => exact ih hapart htaken hrest
      case isFalse hclear =>
        split
        case h_1 slot hslot =>
          refine ih (.cons (fun x hx => ?_) hapart)
            (List.forall_mem_cons.mpr ⟨hplace slot hslot, htaken⟩) hrest
          have hover := List.any_eq_false.mp (Bool.eq_false_iff.mpr hclear) x hx
          simp only [Bool.and_eq_true, decide_eq_true_eq] at hover
          change place.tree.range.stop ≤ x.1.start ∨ x.1.stop ≤ place.tree.range.start
          omega
        case h_2 => exact ih hapart htaken hrest

-- The slot lies where an expression of the file does, which is not empty.
structure LiesOn (f : SourceFile) (slot : InputSlot) (range : Text.ByteRange) : Prop where
  expr : ∃ t ∈ f.tree.nodes, t.isExpr = true ∧ t.range = range
  fits : range.FitsIn f.text
  filled : range.start < range.stop
  span : slot.span = f.lines.span range

theorem liesOn_of_slotAt? {d : Document} {place : Place} {slot : InputSlot}
    (htree : d.file.tree = (Syntax.parse d.file.text).tree) (hplace : place ∈ d.file.tree.places)
    (h : slotAt? d place = some slot) : LiesOn d.file slot place.tree.range := by
  obtain ⟨hexpr, htokens, hspan⟩ := place_of_slotAt? h
  have hlies := Syntax.liesIn_place (htree ▸ hplace)
  have hbelow : place.tree.nodes ⊆ d.file.tree.nodes :=
    Tree.forall_nodesWithin (P := fun t => t.nodes ⊆ d.file.tree.nodes)
      (fun t ht c hc => List.Subset.trans (Tree.nodes_child hc) ht) _ [] (List.Subset.refl _) place hplace
  have hnode : place.tree.isNode = true := by
    unfold Tree.isExpr at hexpr
    unfold Tree.isNode
    cases hkind : place.tree.kind? <;> simp_all
  exact ⟨⟨place.tree, hbelow (Tree.mem_nodes_self hnode), hexpr, rfl⟩, hlies.fitsIn,
    hlies.start_lt_stop htokens, hspan⟩

section Positions

variable {f : SourceFile} {a b : InputSlot} {r s : Text.ByteRange} (hlines : f.lines = .ofText f.text)

include hlines

-- An expression starts before it ends, in lines and columns too.
theorem LiesOn.start_lt (h : LiesOn f a r) : a.span.start.lt a.span.stop = true := by
  rw [h.span, hlines]
  exact Text.LineIndex.position_lt h.fits.start_valid h.fits.stop_valid h.filled

theorem LiesOn.stop_le (h : LiesOn f a r) (h' : LiesOn f b s) (hle : r.stop ≤ s.start) :
    a.span.stop.le b.span.start = true := by
  rw [h.span, h'.span, hlines]
  rcases Nat.eq_or_lt_of_le hle with heq | hlt
  · rw [Text.LineIndex.span, Text.LineIndex.span, heq]
    exact Text.Position.le_refl _
  · exact Text.Position.le_of_lt (Text.LineIndex.position_lt h.fits.stop_valid h'.fits.start_valid hlt)

end Positions

def Beside (a b : InputSlot) : Prop := a.span.stop.le b.span.start = true ∨ b.span.stop.le a.span.start = true

theorem Beside.symm {a b : InputSlot} (h : Beside a b) : Beside b a := Or.symm h

theorem follows_of_le {a b : InputSlot} (ha : a.span.start.lt a.span.stop = true)
    (hb : b.span.start.lt b.span.stop = true) (hle : a.le b = true) (h : Beside a b) :
    a.span.start.lt b.span.start = true ∧ a.span.stop.le b.span.start = true := by
  rcases h with h | h
  · exact ⟨Text.Position.lt_of_lt_of_le ha h, h⟩
  · have hlt := Text.Position.lt_of_lt_of_le hb h
    refine absurd hlt (Text.Position.not_lt_of_le ?_)
    rcases InputSlot.le_iff.mp hle with hstart | ⟨hstart, -⟩
    · exact Text.Position.le_of_lt hstart
    · rw [hstart]
      exact Text.Position.le_refl _

variable {config : Config} {assets : AssetReader} {inputs : List (String × String)} {p : Program}
variable {f : SourceFile}

-- Every document of a program has slots. Each ends before the next one starts, and lies where one
-- expression of the document does.
theorem inputSlots_ordered (h : Program.compile config assets inputs false = .ok p)
    (hf : f ∈ p.files.toList) :
    ∃ slots, inputSlots p f.path = .ok slots ∧
      slots.Pairwise (fun a b => a.span.start.lt b.span.start = true ∧ a.span.stop.le b.span.start = true) ∧
      ∀ slot ∈ slots, slot.span.start.lt slot.span.stop = true ∧
        ∃ t ∈ f.tree.nodes, t.isExpr = true ∧ slot.span = f.lines.span t.range := by
  have htree := (Program.compiled_of_compile h).tree f hf
  obtain ⟨hconfig, hfiles⟩ := Program.files_of_compile h
  have hfiled := Program.Parsed.filed_parseFiles config inputs
  generalize Program.parseFiles config inputs = q at hfiles hfiled
  rw [hfiles] at hf
  have hlines := hfiled.lines f hf
  have hopen : Document.open? p f.path = .ok ⟨p, f⟩ := by
    have hsource := hfiled.source f hf
    have hfound := hfiled.find?_path hf
    rw [← hconfig] at hsource
    rw [← hfiles] at hfound
    simp [Document.open?, hsource, Program.fileOfPath?, hfound]
  have hplaces (place : Place) (hplace : place ∈ f.tree.places) (slot : InputSlot)
      (hslot : slotAt? ⟨p, f⟩ place = some slot) : LiesOn f slot place.tree.range :=
    liesOn_of_slotAt? (d := ⟨p, f⟩) htree hplace hslot
  obtain ⟨all, hall, hapart, hlies⟩ := exists_taken (P := fun x => LiesOn f x.2 x.1) ⟨p, f⟩ f.tree.places .nil
    (fun _ hx => absurd hx List.not_mem_nil) hplaces
  have hon (slot : InputSlot) (hslot : slot ∈ all.map (·.2)) : ∃ range, LiesOn f slot range := by
    obtain ⟨x, hx, rfl⟩ := List.mem_map.mp hslot
    exact ⟨x.1, hlies x hx⟩
  refine ⟨(all.map (·.2)).mergeSort InputSlot.le, ?_, ?_, fun slot hslot => ?_⟩
  · rw [inputSlots, hopen, ← hall]
    rfl
  · -- the order of the list is that of the starts, and so slots that are apart follow each other
    have hsides : (all.map (·.2)).Pairwise Beside := by
      refine List.pairwise_map.mpr (hapart.imp_of_mem fun {x y} hx hy h => ?_)
      exact h.imp ((hlies x hx).stop_le hlines (hlies y hy)) ((hlies y hy).stop_le hlines (hlies x hx))
    have hsorted := (List.pairwise_mergeSort InputSlot.le_trans InputSlot.le_total (all.map (·.2))).and
      ((List.mergeSort_perm (all.map (·.2)) InputSlot.le).symm.pairwise hsides fun h => h.symm)
    refine hsorted.imp_of_mem fun {a b} ha hb h => ?_
    obtain ⟨r, hr⟩ := hon a (List.mem_mergeSort.mp ha)
    obtain ⟨s, hs⟩ := hon b (List.mem_mergeSort.mp hb)
    exact follows_of_le (hr.start_lt hlines) (hs.start_lt hlines) h.1 h.2
  · obtain ⟨range, hrange⟩ := hon slot (List.mem_mergeSort.mp hslot)
    obtain ⟨t, ht, hexpr, rfl⟩ := hrange.expr
    exact ⟨hrange.start_lt hlines, t, ht, hexpr, hrange.span⟩

-- A slot for each of two numbers.
theorem inputSlots_ordered_numbers :
    ∃ p f, Program.compile {} (.ofFiles []) [("main.spx", "println 1, 2")] false = .ok p ∧
    f ∈ p.files.toList ∧ ∃ slots, inputSlots p f.path = .ok slots ∧
      slots.Pairwise (fun a b => a.span.start.lt b.span.start = true ∧ a.span.stop.le b.span.start = true) ∧
      ∀ slot ∈ slots, slot.span.start.lt slot.span.stop = true ∧
        ∃ t ∈ f.tree.nodes, t.isExpr = true ∧ slot.span = f.lines.span t.range := by
  have hspread : Program.Parsed.NoEmptySpread [("main.spx", "println 1, 2")] :=
    Program.Parsed.noEmptySpread_of_tokenize (by cbv)
  obtain ⟨p, hp, -⟩ := Program.compile_ok {} (.ofFiles []) hspread
  have hsource : ({} : Config).isSourcePath "main.spx" = true := by cbv
  obtain ⟨f, hf, -⟩ :=
    Program.Parsed.exists_file hsource (List.mem_singleton_self ("main.spx", "println 1, 2"))
  rw [← (Program.files_of_compile hp).2] at hf
  exact ⟨p, f, hp, hf, inputSlots_ordered hp hf⟩

-- A slot is offered the costumes of the sprite that the search for resources finds, where the
-- nearest call is one on a sprite: the two go outwards by different evidence, what is recorded of
-- calls and what stands before the dot.

section Sprites

variable {d : Document} {place p : Place} {before after : List Place} {callee : Tree} {owner : String}

theorem chain_eq_map_outward (place : Place) : place.chain = place.outward.map (·.tree) := by
  obtain ⟨t, around⟩ := place
  unfold Place.chain Place.outward
  dsimp only
  induction around generalizing t with
  | nil => rfl
  | cons outer rest ih =>
      rw [Place.outward.go, List.map_cons, ← ih outer]

-- The sprite of a type.
def spriteOf? (m : Model) (ty : Ty) : Option String :=
  if m.isSpriteClass ty then ty.named?.map fun id => (m.namedType id).name else none

theorem spriteContext?_of_nearest (hplace : place.outward = before ++ p :: after)
    (hbefore : ∀ q ∈ before, q.tree.isCall = false) (hcall : p.tree.isCall = true) {x : String}
    (hx : (((d.info.call? d.file.file p.tree).bind (·.receiverType?)).bind (spriteOf? d.model)) = some x) :
    spriteContext? d.model d.info d.file.file place = some x := by
  refine List.findSome?_eq_some_iff.mpr ⟨before.map (·.tree), p.tree, after.map (·.tree), ?_, ?_,
    fun t ht => ?_⟩
  · rw [chain_eq_map_outward, hplace, List.map_append, List.map_cons]
  · rw [hcall, if_pos rfl]
    exact hx
  · obtain ⟨q, hq, rfl⟩ := List.mem_map.mp ht
    exact if_neg (Bool.eq_false_iff.mp (hbefore q hq))

theorem receiverSprite?_of_nearest (hplace : place.outward = before ++ p :: after)
    (hbefore : ∀ q ∈ before, q.tree.isCall = false ∧ q.isA .selectorExpr = false)
    (hcall : p.tree.isCall = true) (hcallee : p.tree.expr? = some callee) :
    d.receiverSprite? place = if callee.unparen.isA .selectorExpr then
      (callee.unparen.expr?.bind d.type?).bind (spriteOf? d.model) else none := by
  have hfound : (place.outward.findSome? fun q => if q.tree.isCall then q.tree.expr?
      else if q.isA .selectorExpr && (q.parentOf? .exprStmt).isSome then some q.tree else none) =
        some callee := by
    refine List.findSome?_eq_some_iff.mpr ⟨before, p, after, hplace, ?_, fun q hq => by simp [hbefore q hq]⟩
    rw [hcall, if_pos rfl, hcallee]
  rw [Document.receiverSprite?, hfound]
  cases hselector : callee.unparen.isA .selectorExpr with
  | false => simp [hselector]
  | true =>
      simp only [Option.bind_eq_bind, Option.bind_some, hselector, Bool.not_true, Bool.false_eq_true,
        if_false, if_true, Option.bind_assoc]
      rfl

-- The nearest call is recorded with the type of what stands before the dot of its function, as
-- calls of methods are.
theorem spriteAt?_of_spriteContext? (hplace : place.outward = before ++ p :: after)
    (hbefore : ∀ q ∈ before, q.tree.isCall = false ∧ q.isA .selectorExpr = false)
    (hcall : p.tree.isCall = true) (hcallee : p.tree.expr? = some callee)
    (hrecorded : callee.unparen.isA .selectorExpr = true →
      (d.info.call? d.file.file p.tree).bind (·.receiverType?) = callee.unparen.expr?.bind d.type?)
    (howner : spriteContext? d.model d.info d.file.file place = some owner) :
    d.spriteAt? place = some owner := by
  have hreceiver := receiverSprite?_of_nearest (d := d) hplace hbefore hcall hcallee
  rw [Document.spriteAt?, howner]
  split at hreceiver
  case isTrue hselector =>
    rw [← hrecorded hselector] at hreceiver
    cases hsprite : d.receiverSprite? place with
    | none => rfl
    | some x =>
        have hx :=
          spriteContext?_of_nearest hplace (fun q hq => (hbefore q hq).1) hcall (hreceiver.symm.trans hsprite)
        rw [howner] at hx
        rw [Option.some.inj hx]
        rfl
  case isFalse =>
    rw [hreceiver]
    rfl

end Sprites

end Editor

end SpriteScript
