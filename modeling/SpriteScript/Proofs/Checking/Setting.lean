import SpriteScript.Check.Declarations
import SpriteScript.Proofs.Checking.Outline
import SpriteScript.Proofs.Resource.Places

-- What a check is measured against: the texts of its files, and the symbols that the finished
-- program has.
namespace SpriteScript

-- A call that spreads an argument and has none, as where the dots stand alone.
def Tree.isEmptySpread (t : Tree) : Bool :=
  t.isCall && t.args.isEmpty && t.argList?.any Tree.hasSpread

namespace Tree

-- The names that a declaration of variables or constants declares.
def declaredIdents (decl : Tree) : List Token :=
  decl.specs.flatMap fun spec => spec.names.filterMap ident?

-- The names that the variables at the top of a file have.
def varIdents (root : Tree) : List Token := (root.childrenOf .varDecl).flatMap declaredIdents

def firstVarIdents (root : Tree) : List Token :=
  ((root.childrenOf .varDecl).head?.map declaredIdents).getD []

-- The packages that a file imports.
def importSpecs (root : Tree) : List Tree := (root.childrenOf .importDecl).flatMap (·.childrenOf .importSpec)

theorem declaredIdents_subset (decl : Tree) : decl.declaredIdents ⊆ decl.tokens := by
  intro s hs
  obtain ⟨spec, hspec, hs⟩ := List.mem_flatMap.mp hs
  obtain ⟨name, hname, hs⟩ := List.mem_filterMap.mp hs
  have hs := childTokens_subset name (List.mem_of_find?_eq_some hs)
  exact mem_tokens_child (List.mem_filter.mp hspec).1 (mem_tokens_child (List.mem_filter.mp hname).1 hs)

theorem varIdents_subset (root : Tree) : root.varIdents ⊆ root.tokens := by
  intro s hs
  obtain ⟨decl, hdecl, hs⟩ := List.mem_flatMap.mp hs
  exact mem_tokens_child (List.mem_filter.mp hdecl).1 (declaredIdents_subset decl hs)

theorem firstVarIdents_subset (root : Tree) : root.firstVarIdents ⊆ root.varIdents := by
  intro s hs
  unfold firstVarIdents at hs
  unfold varIdents
  cases hdecls : root.childrenOf .varDecl with
  | nil => simp [hdecls] at hs
  | cons decl rest =>
      rw [hdecls, List.head?_cons, Option.map_some, Option.getD_some] at hs
      exact List.mem_append_left _ hs

end Tree

-- What a symbol has for good. Its type, its overloads and its value are found later.
structure Origin where
  name : String
  kind : SymbolKind
  definedAt : Option DefSite
  inFirstVarBlock : Bool
deriving DecidableEq, Repr, Inhabited

def Symbol.origin (s : Symbol) : Origin := ⟨s.name, s.kind, s.definedAt, s.inFirstVarBlock⟩

def Model.origins (m : Model) : List Origin := m.symbols.toList.map Symbol.origin

namespace Check

-- `strict` says that no call spreads an argument that it does not have.
structure Setting where
  text? : FileId → Option String
  -- in the order of their numbers, those of the bundled packages first
  origins : List Origin
  bundledCount : Nat
  strict : Prop
  bundled : ∀ file, file.isBundled = true → (text? file).isSome = true → origins.length ≤ bundledCount

namespace Setting

variable (w : Setting)

-- The tokens of the names in one of the lists of a file of the program.
def identsOf (list : Tree → List Token) : FileId → List Token
  | .source index => ((w.text? (.source index)).map fun text => list (Syntax.parse text).tree).getD []
  | .bundled _ => []

def varIdents : FileId → List Token := w.identsOf Tree.varIdents

def firstVarIdents : FileId → List Token := w.identsOf Tree.firstVarIdents

end Setting

-- A setting with the range of the text that is looked at.
structure Region extends Setting where
  span : Text.ByteRange

instance : Coe Region Setting := ⟨Region.toSetting⟩

variable {w : Setting} {file : FileId}

theorem identsOf_subset {list list' : Tree → List Token} (h : ∀ t, list t ⊆ list' t) :
    w.identsOf list file ⊆ w.identsOf list' file := by
  intro s hs
  cases file with
  | bundled => exact hs
  | source index =>
      unfold Setting.identsOf at hs ⊢
      dsimp only at hs ⊢
      cases htext : w.text? (.source index) with
      | none => simp [htext] at hs
      | some text =>
          simp only [htext, Option.map_some, Option.getD_some] at hs ⊢
          exact h _ hs

theorem firstVarIdents_subset : w.firstVarIdents file ⊆ w.varIdents file :=
  identsOf_subset Tree.firstVarIdents_subset

-- The range lies in the text of the file.
class InText (w : Setting) (file : FileId) (r : Text.ByteRange) : Prop where
  exists_text : ∃ text, w.text? file = some text ∧ r.FitsIn text

-- The token stands in the file.
class Stands (w : Setting) (file : FileId) (s : Token) : Prop where
  exists_text : ∃ text, w.text? file = some text ∧ s ∈ Token.tokenize text

-- An identifier of the file.
class Word (w : Setting) (file : FileId) (s : Token) : Prop extends Stands w file s where
  kind : s.kind = .ident

-- The token does not name a variable at the top of the file.
class Apart (w : Setting) (file : FileId) (s : Token) : Prop where
  notMem : s ∉ w.varIdents file

-- A token that may be used freely: it names no variable at the top of the file.
class Free (w : Setting) (file : FileId) (s : Token) : Prop extends Stands w file s, Apart w file s

class FreeWord (w : Setting) (file : FileId) (s : Token) : Prop extends Word w file s, Apart w file s

instance {w : Setting} {file : FileId} {s : Token} [h : FreeWord w file s] : Free w file s where
  exists_text := h.exists_text
  notMem := h.notMem

-- The tree is a part of the file that lies in the range and names no variable at the top of the
-- file, and where it counts no call in it spreads an argument that it does not have.
class Sits (w : Region) (file : FileId) (t : Tree) : Prop where
  part : ∃ text, w.text? file = some text ∧ (Syntax.parse text).tree.HasPart t
  inside : w.span.includes t.range = true
  apart : ∀ s ∈ t.tokens, s ∉ w.varIdents file
  calls : w.strict → ∀ u ∈ t.nodes, u.isEmptySpread = false

class SitAll (w : Region) (file : FileId) (ts : List Tree) : Prop where
  sits : ∀ t ∈ ts, Sits w file t

-- The tree imports a package for the file.
class Imports (w : Region) (file : FileId) (spec : Tree) : Prop extends Sits w file spec where
  listed : ∃ text, w.text? file = some text ∧ spec ∈ (Syntax.parse text).tree.importSpecs

-- The token is the path of a package that the file imports without an alias.
def BareImport (w : Setting) (file : FileId) (s : Token) : Prop :=
  ∃ text, w.text? file = some text ∧ ∃ spec ∈ (Syntax.parse text).tree.importSpecs,
    spec.pathToken? = some s ∧ spec.name?.bind Tree.ident? = none

-- A specification. Its names may be those of variables.
class SpecSits (w : Region) (file : FileId) (spec : Tree) : Prop where
  place : InText w file spec.range
  type : ∀ t, spec.type? = some t → Sits w file t
  values : SitAll w file (spec.listed 0)

-- The number of a symbol of that name.
class Names (w : Setting) (id : SymbolId) (name : String) : Prop where
  exists_origin : ∃ o, w.origins[id.index]? = some o ∧ o.name = name

-- The file is one of the program, or one whose text is there.
def Setting.Holds (w : Setting) (file : FileId) : Prop :=
  file.isBundled = false ∨ (w.text? file).isSome = true

-- The token is an identifier of that name, or the path of a package without an alias.
def NameOrImport (w : Setting) (file : FileId) (s : Token) (name : String) : Prop :=
  s.kind = .ident ∧ s.text = name ∨ BareImport w file s

-- The symbol is declared at the place, as far as files of the program go. Its name stands there,
-- or the path of a package without an alias.
class DefinedAt (w : Setting) (id : SymbolId) (file : FileId) (range : Text.ByteRange) : Prop where
  exists_origin : file.isBundled = false →
    ∃ o, w.origins[id.index]? = some o ∧ o.definedAt = some ⟨file, range⟩
  spelled : w.Holds file → ∃ s o, Stands w file s ∧ rangeOf s = range ∧ w.origins[id.index]? = some o ∧
    NameOrImport w file s o.name

section Tokens

variable {s s' : Token}

instance [h : Stands w file s] : InText w file (rangeOf s) := by
  obtain ⟨text, htext, hmem⟩ := h.exists_text
  have hfits := (Token.tokenize_row text).fitsIn hmem
  rw [Token.texts_tokenize] at hfits
  exact ⟨text, htext, hfits⟩

theorem stands_of_mem_varIdents (h : s ∈ w.varIdents file) : Stands w file s := by
  have htokens := identsOf_subset Tree.varIdents_subset h
  cases file with
  | bundled => cases h
  | source index =>
      unfold Setting.identsOf at htokens
      dsimp only at htokens
      cases htext : w.text? (.source index) with
      | none => simp [htext] at htokens
      | some text =>
          rw [htext, Option.map_some, Option.getD_some, Syntax.tokens_parse] at htokens
          exact ⟨text, htext, htokens⟩

-- Tokens of one range are one token.
theorem eq_of_rangeOf_eq {text : String} (hs : s ∈ Token.tokenize text)
    (hs' : s' ∈ Token.tokenize text) (hrange : rangeOf s = rangeOf s') : s = s' := by
  by_contra hne
  have : Std.Symm fun a b : Token => a.range ≠ b.range := ⟨fun _ _ h => h.symm⟩
  exact (Token.tokenize_row text).ranges_ne.forall hs hs' hne hrange

theorem text_ne_empty {text : String} (hs : s ∈ Token.tokenize text) : s.text ≠ "" := by
  intro hempty
  obtain ⟨before, after, htokens⟩ := List.append_of_mem hs
  have hrow := Token.tokenize_row text
  rw [htokens] at hrow
  obtain ⟨mid, -, hoffset, hpos, -⟩ := Token.Row.append_iff.mp hrow
  rw [Token.stop, hempty, hoffset] at hpos
  simp at hpos

end Tokens

section Places

variable {w : Region} {t c : Tree} {ts : List Tree} {s : Token}

theorem Sits.exists_text (h : Sits w file t) :
    ∃ text, w.text? file = some text ∧ t.LiesIn text ∧ ∀ s ∈ t.tokens, s ∈ Token.tokenize text := by
  obtain ⟨text, htext, hpart⟩ := h.part
  exact ⟨text, htext, hpart.liesIn (Syntax.liesIn_parse text),
    fun s hs => Syntax.tokens_parse text ▸ hpart.tokens_subset hs⟩

instance [h : Sits w file t] : InText w file t.range := by
  obtain ⟨text, htext, hlies, -⟩ := h.exists_text
  exact ⟨text, htext, hlies.fitsIn⟩

theorem Sits.child [h : Sits w file t] (hc : c ∈ t.children) : Sits w file c := by
  obtain ⟨text, htext, hpart⟩ := h.part
  have hlies := hpart.liesIn (Syntax.liesIn_parse text)
  exact ⟨⟨text, htext, hpart.child hc⟩, Text.ByteRange.includes_trans h.inside (hlies.includes_child hc),
    fun s hs => h.apart s (Tree.mem_tokens_child hc hs),
    fun hstrict u hu => h.calls hstrict u (Tree.nodes_child hc hu)⟩

-- A tree lies in its own range.
theorem Sits.within_range [h : Sits w file t] : Sits { w with span := t.range } file t :=
  ⟨h.part, Text.ByteRange.includes_self, h.apart, h.calls⟩

theorem Sits.of_childWith? [Sits w file t] {p : NodeKind → Bool}
    (hc : t.childWith? p = some c) : Sits w file c :=
  .child (List.mem_of_find?_eq_some hc)

theorem Sits.of_mem [h : SitAll w file ts] (hc : c ∈ ts) : Sits w file c := h.sits c hc

theorem Sits.of_getElem? [SitAll w file ts] {index : Nat} (hc : ts[index]? = some c) :
    Sits w file c :=
  .of_mem (List.mem_of_getElem? hc)

-- A call in the text that spreads its arguments has one.
theorem Sits.args_ne_nil (h : Sits w file t) (hstrict : w.strict) (hcall : t.isCall = true)
    (hspread : t.argList?.any Tree.hasSpread = true) : t.args ≠ [] := by
  intro hargs
  have hnode : t.isNode = true := by
    cases t with
    | token => simp [Tree.isCall, Tree.kind?] at hcall
    | node => rfl
  have hempty := h.calls hstrict t (Tree.mem_nodes_self hnode)
  simp [Tree.isEmptySpread, hcall, hspread, hargs] at hempty

instance [Sits w file t] (p : NodeKind → Bool) : SitAll w file (t.childrenWith p) :=
  ⟨fun _ hc => .child (List.mem_filter.mp hc).1⟩

instance [Sits w file t] (kind : NodeKind) : SitAll w file (t.childrenOf kind) := by
  unfold Tree.childrenOf
  infer_instance

-- The trees of an optional part.
theorem SitAll.getD {o : Option Tree} {f : Tree → List Tree}
    (h : ∀ c, o = some c → SitAll w file (f c)) : SitAll w file ((o.map f).getD []) := by
  cases o with
  | none => exact ⟨nofun⟩
  | some c => exact h c rfl

instance [Sits w file t] : SitAll w file t.names := by
  unfold Tree.names
  infer_instance

instance [Sits w file t] : SitAll w file t.exprs := by
  unfold Tree.exprs
  infer_instance

instance [Sits w file t] : SitAll w file t.statements := by
  unfold Tree.statements
  infer_instance

instance [Sits w file t] : SitAll w file t.specs := by
  unfold Tree.specs
  infer_instance

instance [Sits w file t] : SitAll w file t.params := by
  unfold Tree.params
  infer_instance

instance [Sits w file t] : SitAll w file t.elements := by
  unfold Tree.elements
  infer_instance

instance [Sits w file t] : SitAll w file t.args := by
  refine SitAll.getD fun list hlist => ?_
  have : Sits w file list := .of_childWith? hlist
  infer_instance

instance [Sits w file t] : SitAll w file t.lambdaParams := by
  refine SitAll.getD fun list hlist => ?_
  have : Sits w file list := .of_childWith? hlist
  infer_instance

instance [Sits w file t] (index : Nat) : SitAll w file (t.listed index) := by
  refine SitAll.getD fun list hlist => ?_
  have : Sits w file list := .of_getElem? hlist
  infer_instance

instance [Sits w file t] : SitAll w file t.clauseStatements := by
  unfold Tree.clauseStatements
  split
  · exact ⟨fun _ hc => .of_mem (List.mem_filter.mp hc).1⟩
  · exact ⟨nofun⟩

instance [Sits w file t] : SpecSits w file t where
  place := inferInstance
  type _ h := .of_childWith? h
  values := inferInstance

instance [h : SpecSits w file t] : InText w file t.range := h.place

-- Tokens

theorem Free.of_mem_childTokens [h : Sits w file t] (hs : s ∈ t.childTokens) : Free w file s := by
  obtain ⟨text, htext, -, htokens⟩ := h.exists_text
  have hmem := Tree.childTokens_subset t hs
  exact { exists_text := ⟨text, htext, htokens s hmem⟩, notMem := h.apart s hmem }

theorem Free.of_find? [Sits w file t] {p : Token → Bool}
    (h : t.childTokens.find? p = some s) : Free w file s :=
  .of_mem_childTokens (List.mem_of_find?_eq_some h)

theorem FreeWord.of_free (h : Free w file s) (hkind : s.kind = .ident) : FreeWord w file s :=
  { exists_text := h.exists_text, notMem := h.notMem, kind := hkind }

theorem FreeWord.of_mem_tokensOf [Sits w file t] (h : s ∈ t.tokensOf .ident) : FreeWord w file s := by
  obtain ⟨hmem, hkind⟩ := List.mem_filter.mp h
  exact .of_free (.of_mem_childTokens hmem) (beq_iff_eq.mp hkind)

theorem FreeWord.of_ident? [Sits w file t] (h : t.ident? = some s) : FreeWord w file s :=
  .of_free (.of_find? h) (beq_iff_eq.mp (List.find?_some h :))

-- The token of a name that the tree has as a part.
theorem FreeWord.of_bind_ident? [Sits w file t] {p : NodeKind → Bool}
    (h : (t.childWith? p).bind Tree.ident? = some s) : FreeWord w file s := by
  obtain ⟨c, hc, hident⟩ := Option.bind_eq_some_iff.mp h
  have : Sits w file c := .of_childWith? hc
  exact .of_ident? hident

theorem FreeWord.of_mem_idents [SitAll w file ts] (h : s ∈ ts.filterMap Tree.ident?) :
    FreeWord w file s := by
  obtain ⟨c, hc, hident⟩ := List.mem_filterMap.mp h
  have : Sits w file c := .of_mem hc
  exact .of_ident? hident

end Places

end Check

-- A symbol is spelled as it is written where it is declared, and knows whether it is one of the
-- first variables of its file.
structure Origin.Fits (w : Check.Setting) (o : Origin) : Prop where
  known : ∀ site, o.definedAt = some site →
    site.file.isBundled = true ∨ (w.text? site.file).isSome = true
  spelled : ∀ site text s, o.definedAt = some site → w.text? site.file = some text →
    s ∈ Token.tokenize text → s.kind = .ident → Check.rangeOf s = site.range → s.text = o.name
  first : o.inFirstVarBlock = true ↔
    ∃ site s, o.definedAt = some site ∧ s ∈ w.firstVarIdents site.file ∧ Check.rangeOf s = site.range

end SpriteScript
