import SpriteScript.Proofs.Checking.Sources

-- The check of a program as a whole. Its classes are declared first; everything else is done
-- in states in which they are known.
namespace SpriteScript.Check

-- The instances for the parts of a long function are found in one search.
set_option synthInstance.maxSize 1000

variable {w : Stage} {file : FileId} {package : String} {source : Source} {sources : List Source}
variable {s s' : State}

section Classes

instance (id : FileId × NamedId) (game : Option NamedId → Option NamedId) : Keeps w file
    (modify fun s => { s with classes := s.classes ++ [id], gameClass := game s.gameClass } :
      CheckM Unit) where
  run _ := ⟨⟨fun hs => { hs with }, fun _ => ⟨.refl _, List.prefix_append .., List.suffix_rfl, fun _ h => h⟩⟩,
    fun _ ht _ => ⟨ht.model, ht.info⟩⟩

-- No token stands at the empty place that a class has.
theorem fits_class (h : source.Fits w) :
    Origin.Fits w ⟨source.className, .typeName, some ⟨source.file, .empty 0⟩, false⟩ := by
  obtain ⟨text, htext, -⟩ := h.exists_text
  have hplace {s : Token} {text' : String} (htext' : w.text? source.file = some text')
      (hs : s ∈ Token.tokenize text') (hrange : rangeOf s = .empty 0) : False := by
    have hstart : s.offset = 0 := congrArg Text.ByteRange.start hrange
    have hstop : s.stop = 0 := congrArg Text.ByteRange.stop hrange
    have hempty : s.text.utf8ByteSize = 0 := by
      rw [Token.stop] at hstop
      omega
    exact text_ne_empty hs (String.utf8ByteSize_eq_zero_iff.mp hempty)
  refine ⟨?_, ?_, fun hfirst => absurd hfirst Bool.false_ne_true, ?_⟩
  · rintro site ⟨⟩
    exact .inr (htext ▸ rfl)
  · rintro site text' s ⟨⟩ htext' hs - hrange
    exact (hplace htext' hs hrange).elim
  · rintro ⟨site, s, ⟨⟩, hs, hrange⟩
    obtain ⟨text', htext', hmem⟩ := (stands_of_mem_varIdents (firstVarIdents_subset hs)).exists_text
    exact (hplace htext' hmem hrange).elim

-- The scope of a file, which reaches over its text.
def fileScope (unit : ScopeId) (source : Source) (id : NamedId) : Scope :=
  { kind := .file, parent := some unit, file := some source.file, range :=
    source.tree.range, fileClass := some id }

theorem keeps_openFile {unit : ScopeId} {id : NamedId} (h : source.Fits w)
    (hroom : w.base.outline.Encloses unit source.file source.tree.range) : Keeps w file (do
      let scope ← addScope (fileScope unit source id)
      modifyModel fun m => { m with fileScopes := m.fileScopes ++ [(source.file, scope)] }) := by
  obtain ⟨text, htext, htree⟩ := h.exists_text
  have hrange : source.tree.range = ⟨0, text.utf8ByteSize⟩ := htree ▸ Syntax.range_parse text
  have hnotes : Notes w (fileScope unit source id)
      fun scope m => { m with fileScopes := m.fileScopes ++ [(source.file, scope)] } :=
    ⟨fun _ _ => rfl, fun _ _ => rfl, fun _ _ => rfl, fun _ _ => List.prefix_append ..,
      fun _ _ hfound hnested => hnested.note_file hfound h.notBundled htext rfl hrange rfl⟩
  have hspans : (fileScope unit source id).frame.Spans w.text? := fun other hother _ => by
    obtain rfl : source.file = other := Option.some.inj hother
    exact ⟨text, htext, source.tree, htree ▸ .self _, rfl⟩
  exact ⟨(keeps_openScope rfl rfl rfl (.inr rfl) hspans hroom hnotes).run⟩

theorem keeps_declareClass {unit : ScopeId} (h : source.Fits w)
    (hroom : w.base.outline.Encloses unit source.file source.tree.range) :
    Keeps w file (declareClass package unit source) := by
  have hclass (id : NamedId) : Keeps w file (modify fun st => { st with
      classes := st.classes ++ [(source.file, id)]
      gameClass := if source.isEntry then some id else st.gameClass } : CheckM Unit) :=
    (inferInstance : Keeps w file (modify fun st => { st with
      classes := st.classes ++ [(source.file, id)]
      gameClass := (fun game => if source.isEntry then some id else game) st.gameClass } : CheckM Unit))
  unfold declareClass
  refine .bind (Keeps.addNamed rfl) fun id => Keeps.bind_yields (.addSymbol rfl (fits_class h)) (fun s => ?_)
    fun s hs => ?_
  · have := hclass id
    refine .bind inferInstance fun _ => .bind inferInstance fun _ => .bind inferInstance fun _ => ?_
    exact ⟨fun s => ((keeps_openFile h hroom).run s).toStaying⟩
  · have hname : Names w s source.className := ⟨_, hs, rfl⟩
    exact .bind (Keeps.modifyNamed fun _ h => h) fun _ => .bind inferInstance fun _ =>
      .bind (hclass id) fun _ => keeps_openFile h hroom

instance (owner base : NamedId) : Keeps w file (embed owner base) := by
  unfold embed
  refine .bind inferInstance fun m => Keeps.bind_yields (.addSymbol rfl fits_unplaced)
    (fun _ => inferInstance) fun id hid => Keeps.modifyNamed fun n hn => ?_
  split
  case h_1 fields hfields =>
    rw [NamedType.fields, hfields] at hn
    intro f hf
    rcases List.mem_append.mp hf with hf | hf
    · exact hn f hf
    · rw [List.mem_singleton.mp hf]
      exact ⟨_, hid, rfl⟩
  case h_2 => exact hn

instance (other : FileId) : Keeps w file (classOf? other) := .of_read fun _ => rfl

theorem Runs.embedBases {R : State → State → Prop} [IsPreorder State R]
    [∀ owner base, Runs R (embed owner base)] : Runs R (embedBases source) := by
  have hclass (other : FileId) : Runs R (classOf? other) := .of_read fun _ => rfl
  unfold Check.embedBases
  refine .bind (hclass source.file) fun owner? => ?_
  split
  case h_1 owner =>
    refine .bind inferInstance fun m => ?_
    dsimp only
    split
    · split <;> infer_instance
    · split
      · refine .bind inferInstance fun _ => .bind inferInstance fun s => ?_
        split <;> infer_instance
      · refine .bind inferInstance fun s => ?_
        split <;> infer_instance
  case h_2 => infer_instance

instance : Keeps w file (embedBases source) := Runs.embedBases

end Classes

-- The class of every file is known, and so is the scope in which the file sees its members.
def Ready (sources : List Source) (s : State) : Prop :=
  ∀ source ∈ sources, (∃ id, (source.file, id) ∈ s.classes) ∧
    ∃ scope, (source.file, scope) ∈ s.model.fileScopes

theorem Ready.mono (h : Ready sources s) (hext : s.Extends s') : Ready sources s' :=
  fun source hsource =>
    ⟨(h source hsource).1.imp fun _ hmem => hext.classes.subset hmem,
      (h source hsource).2.imp fun _ hmem => hext.model.fileScopes.subset hmem⟩

-- Where the classes are known, a sane state stays sane, or even keeps to its setting.
def ReadyStaying (w : Stage) (file : FileId) (sources : List Source) (s s' : State) : Prop :=
  Sane w file s → Ready sources s → Staying w file s s'

def ReadyKeeping (w : Stage) (file : FileId) (sources : List Source) (s s' : State) : Prop :=
  Sane w file s → Ready sources s → Keeping w file s s'

instance : IsPreorder State (ReadyStaying w file sources) where
  refl s _ _ := refl_of (Staying w file) s
  trans _ _ _ h h' hs hready :=
    have hmid := h hs hready
    trans_of (Staying w file) hmid (h' (hmid.sane hs) (hready.mono (hmid.extending hs)))

instance : IsPreorder State (ReadyKeeping w file sources) where
  refl s _ _ := refl_of (Keeping w file) s
  trans _ _ _ h h' hs hready :=
    have hmid := h hs hready
    trans_of (Keeping w file) hmid (h' (hmid.sane hs) (hready.mono (hmid.extending hs)))

instance (priority := low) {α : Type} (a : CheckM α) [h : Stays w file a] :
    Runs (ReadyStaying w file sources) a :=
  ⟨fun s _ _ => h.run s⟩

instance (priority := low) {α : Type} (a : CheckM α) [h : Keeps w file a] :
    Runs (ReadyKeeping w file sources) a :=
  ⟨fun s _ _ => h.run s⟩

theorem Runs.readyStaying {α : Type} {a : CheckM α} (h : Runs (ReadyKeeping w file sources) a) :
    Runs (ReadyStaying w file sources) a :=
  ⟨fun s hs hready => (h.run s hs hready).toStaying⟩

-- In such a state the action leads to one with the property.
def Reaches (w : Stage) (file : FileId) (sources : List Source) {α : Type} (a : CheckM α)
    (P : State → Prop) : Prop :=
  ∀ s, Sane w file s → Ready sources s → P (a.run s).2

-- A property that holds for good.
def Lasts (P : State → Prop) : Prop := ∀ s s', s.Extends s' → P s → P s'

section Reaching

variable {α β γ : Type} {P : State → Prop} {a : CheckM α} {f : α → CheckM β} {g : γ → CheckM PUnit}
variable {l : List γ} {x : γ}

theorem Reaches.bind_right (ha : Runs (ReadyStaying w file sources) a)
    (h : ∀ x, Reaches w file sources (f x) P) : Reaches w file sources (a >>= f) P := by
  intro s hs hready
  have hmid := ha.run s hs hready
  exact h _ _ (hmid.sane hs) (hready.mono (hmid.extending hs))

theorem Reaches.bind_from {Q : Model → α → Prop} (ha : Keeps w file a)
    (h : ∀ s, Sane w file s → Q (a.run s).2.model (a.run s).1)
    (hf : ∀ m x, Q m x → Reaches { w with base := m } file sources (f x) P) :
    Reaches w file sources (a >>= f) P := by
  intro s hs hready
  have hmid := ha.run s
  exact hf _ _ (h s hs) _ (hmid.sane hs).rebase (hready.mono (hmid.extending hs))

theorem Reaches.bind_left (hP : Lasts P) (ha : Runs (ReadyStaying w file sources) a)
    (h : Reaches w file sources a P) (hf : ∀ x, Runs (ReadyStaying w file sources) (f x)) :
    Reaches w file sources (a >>= f) P := by
  intro s hs hready
  have hmid := ha.run s hs hready
  have hsane := hmid.sane hs
  have hnext := (hf (a.run s).1).run (a.run s).2 hsane (hready.mono (hmid.extending hs))
  exact hP _ _ (hnext.extending hsane) (h s hs hready)

theorem Reaches.forM (hP : Lasts P) (hl : ∀ y ∈ l, Runs (ReadyStaying w file sources) (g y)) (hx : x ∈ l)
    (h : Reaches w file sources (g x) P) : Reaches w file sources (ForM.forM l g) P := by
  induction l with
  | nil => cases hx
  | cons y rest ih =>
      have hrest (z : γ) (hz : z ∈ rest) := hl z (List.mem_cons_of_mem y hz)
      rw [List.forM_cons]
      rcases List.mem_cons.mp hx with rfl | hx
      · exact .bind_left hP (hl x List.mem_cons_self) h fun _ => Runs.forM hrest
      · exact .bind_right (hl y List.mem_cons_self) fun _ => ih hrest hx

theorem Reaches.mapM {g : γ → CheckM β} (hP : Lasts P)
    (hl : ∀ y ∈ l, Runs (ReadyStaying w file sources) (g y)) (hx : x ∈ l)
    (h : Reaches w file sources (g x) P) : Reaches w file sources (l.mapM g) P := by
  induction l with
  | nil => cases hx
  | cons y rest ih =>
      have hrest (z : γ) (hz : z ∈ rest) := hl z (List.mem_cons_of_mem y hz)
      rw [List.mapM_cons]
      rcases List.mem_cons.mp hx with rfl | hx
      · exact .bind_left hP (hl x List.mem_cons_self) h fun _ =>
          .bind (Runs.mapM hrest) fun _ => inferInstance
      · refine .bind_right (hl y List.mem_cons_self) fun _ => ?_
        exact .bind_left hP (Runs.mapM hrest) (ih hrest hx) fun _ => inferInstance

theorem Reaches.within {c : Context} {span : Text.ByteRange} (hP : Lasts P)
    (hroom : w.base.outline.Encloses c.scope c.file span) (h : Reaches { w with span } c.file sources a P) :
    Reaches w file sources (within c a) P := by
  intro s hs hready
  have hreached := h { s with context := c } (hs.within hroom) hready
  refine hP _ _ ?_ hreached
  exact ⟨.refl _, List.prefix_rfl, List.suffix_rfl, fun _ h => h⟩

end Reaching

section Files

-- What is done within a file is done with its class, in the scope of the file.
theorem run_withinSource (package : String) (h : Ready sources s) (hsource : source ∈ sources)
    (body : ScopeId → Option NamedId → CheckM Unit) : ∃ scope owner,
      s.model.fileScope? source.file = some scope ∧
      (s.classes.find? (·.1 == source.file)).map (·.2) = some owner ∧
      (withinSource package source body).run s =
        (within ⟨source.file, scope, some owner, none, package⟩ (body scope (some owner))).run s := by
  obtain ⟨⟨id, hid⟩, scope, hscope⟩ := h source hsource
  have hclass : ∃ owner, (s.classes.find? (·.1 == source.file)).map (·.2) = some owner := by
    rw [← Option.isSome_iff_exists, Option.isSome_map, List.find?_isSome]
    exact ⟨_, hid, beq_self_eq_true _⟩
  obtain ⟨owner, howner⟩ := hclass
  obtain ⟨scope, hscope⟩ := Model.exists_fileScope? hscope
  refine ⟨scope, owner, hscope, howner, ?_⟩
  rw [withinSource, StateT.run_bind]
  change StateT.run _ s = _
  split
  case h_1 heq =>
    cases heq.symm.trans hscope
    rw [← howner]
    rfl
  case h_2 hnone => exact (hnone scope hscope).elim

-- There is room for the whole file in its scope.
theorem exists_within (package : String) (hs : Sane w file s) (h : Ready sources s)
    (hsource : source ∈ sources) (hfits : source.Fits w)
    (body : ScopeId → Option NamedId → CheckM Unit) : ∃ scope owner,
      s.model.outline.Encloses scope source.file source.tree.range ∧
      (withinSource package source body).run s =
        (within ⟨source.file, scope, some owner, none, package⟩ (body scope (some owner))).run s := by
  obtain ⟨scope, owner, hscope, -, hrun⟩ := run_withinSource package h hsource body
  obtain ⟨text, htext, htree⟩ := hfits.exists_text
  obtain ⟨x, hx, hfile, hrange, -⟩ := Model.exists_frame_of_fileScope? hs.nested hscope htext
  refine ⟨scope, owner, ?_, hrun⟩
  rw [htree, Syntax.range_parse, ← hrange]
  exact ⟨x, hx, Frame.holds_range hfile⟩

-- An action within the file.
theorem ready_withinSource {body : ScopeId → Option NamedId → CheckM Unit} (hsource : source ∈ sources)
    (hfits : source.Fits w)
    (h : ∀ base scope owner, Keeps ⟨⟨w, source.tree.range⟩, base⟩ source.file (body scope (some owner))) :
    Runs (ReadyKeeping w file sources) (withinSource package source body) := by
  refine ⟨fun s hs hready => ?_⟩
  obtain ⟨scope, owner, hroom, hrun⟩ := exists_within package hs hready hsource hfits body
  have hkeeps : Keeps { w with base := s.model } file
      (within ⟨source.file, scope, some owner, none, package⟩ (body scope (some owner))) :=
    .within hroom (h s.model scope owner)
  rw [hrun]
  exact (hkeeps.run s).of_rebase hs

theorem reaches_withinSource {P : State → Prop} {body : ScopeId → Option NamedId → CheckM Unit} (hP : Lasts P)
    (hsource : source ∈ sources) (hfits : source.Fits w)
    (h :
      ∀ base scope owner, Reaches ⟨⟨w, source.tree.range⟩, base⟩ source.file sources
      (body scope (some owner)) P) :
    Reaches w file sources (withinSource package source body) P := by
  intro s hs hready
  obtain ⟨scope, owner, hroom, hrun⟩ := exists_within package hs hready hsource hfits body
  rw [hrun]
  exact Reaches.within (w := { w with base := s.model }) hP hroom (h s.model scope owner) s hs.rebase hready

variable {unit : ScopeId} (hfits : ∀ source ∈ sources, source.Fits w)

include hfits

theorem ready_declareTypeNames (hsource : source ∈ sources) :
    Runs (ReadyKeeping w file sources)
      (withinSource package source fun _ _ => declareTypeNames source.tree unit) := by
  refine ready_withinSource hsource (hfits source hsource) fun base scope owner => ?_
  unfold declareTypeNames
  refine .forM fun decl hdecl => ?_
  have : ItemSits ⟨w, source.tree.range⟩ source.file decl := by
    refine (hfits source hsource).sits_item (Tree.mem_children_of_mem_childrenWith hdecl) fun hkind => ?_
    rw [Tree.kind?_of_mem_childrenOf hdecl] at hkind
    cases hkind
  infer_instance

theorem ready_declareMembers (hsource : source ∈ sources) :
    Runs (ReadyKeeping w file sources)
      (withinSource package source fun _ fileClass => declareMembers unit fileClass true source.tree.items) :=
  ready_withinSource hsource (hfits source hsource) fun _ _ _ =>
    keeps_declareMembers (hfits source hsource).items

end Files

section Items

variable {r : Rules} [KeepsRules w r]

instance (decl : Tree) [Sits w file decl] : Keeps w file (checkFuncBody r decl) := by
  unfold checkFuncBody
  split
  case h_1 body hbody =>
    refine .bind inferInstance fun s => ?_
    extract_lets symbol? signature next results params
    refine KeepsRules.inScope (r := r) fun w _ _ => Keeps.returning ?_
    have : Sits w file body := .of_childWith? hbody
    have hparams (list : Tree) (hlist : Sits w file list) (types : List Ty) (kind : SymbolKind) :
        Keeps w file (declareParams (paramIdents list) types kind) :=
      keeps_declareParams fun ident => freeWord_of_paramIdents
    have hnext (u : Unit) : Keeps w file (next u) := inferInstance
    have hlist (o : Option Tree) (list : Tree) (h : o.bind Tree.paramList? = some list)
        (ho : ∀ t, o = some t → Sits w file t) : Sits w file list := by
      obtain ⟨t, ht, hlist⟩ := Option.bind_eq_some_iff.mp h
      have := ho t ht
      exact .of_childWith? hlist
    have hresults (u : Unit) : Keeps w file (results u) := by
      unfold results
      split
      case h_1 list h =>
        have := hlist _ list h fun t ht => .of_childWith? ht
        exact .bind (hparams list this _ _) hnext
      case h_2 => exact hnext ()
    have hrest (u : Unit) : Keeps w file (params u) := by
      unfold params
      split
      case h_1 list h => exact .bind (hparams list (.of_childWith? h) _ _) hresults
      case h_2 => exact hresults ()
    split
    case h_1 param hparam =>
      obtain ⟨receiver, hreceiver, hparam⟩ := Option.bind_eq_some_iff.mp hparam
      have : Sits w file receiver := .of_childWith? hreceiver
      have : Sits w file param := .of_childWith? hparam
      split
      · split
        case h_1 ident hident =>
          have : FreeWord w file ident := .of_bind_ident? hident
          exact .bind inferInstance hrest
        case h_2 => exact hrest ()
      · exact hrest ()
    case h_2 => exact hrest ()
  case h_2 => infer_instance

theorem keeps_checkItem {base : Model} {item : Tree} (h : source.Fits w) (hitem : item ∈ source.tree.items) :
    Keeps ⟨⟨w, source.tree.range⟩, base⟩ source.file (checkItem r item) := by
  unfold checkItem
  by_cases hkind : item.kind? = some .varDecl
  · simp only [hkind]
    infer_instance
  · have := h.sits_item (Tree.mem_children_of_mem_childrenWith hitem) hkind
    split <;> infer_instance

end Items

section Names

variable {ident : Token} {range : Text.ByteRange}

-- The place is known to declare a symbol.
def Records (file : FileId) (range : Text.ByteRange) (s : State) : Prop :=
  s.info.defs.contains (file, range) = true

theorem lasts_records : Lasts (Records file range) := fun _ _ hext h => hext.defs _ h

theorem reaches_recordDef {id : SymbolId} :
    Reaches w file sources (recordDef range id) (Records file range) := by
  intro s hs _
  change (s.info.recordDef s.context.file range id).defs.contains (file, range) = true
  rw [hs.context, Info.recordDef, Std.HashMap.contains_insert_self]

theorem reaches_declareField {owner : NamedId} [Word w file ident] :
    Reaches w file sources (declareField owner ident) (Records file (rangeOf ident)) := by
  unfold declareField
  exact .bind_right inferInstance fun x => .bind_right inferInstance fun id =>
    .bind_left lasts_records inferInstance reaches_recordDef fun _ => inferInstance

theorem reaches_declareSpecName {scope : ScopeId} {kind : SymbolKind} [Word w file ident] :
    Reaches w file sources (declareSpecName scope kind ident) (Records file (rangeOf ident)) := by
  unfold declareSpecName
  exact .bind_right inferInstance fun x => .bind_right inferInstance fun id =>
    .bind_left lasts_records inferInstance reaches_recordDef fun _ => inferInstance

-- Every name of a declaration is noted, when the declaration of each name is.
theorem reaches_specs {decl : Tree} {declare : Token → CheckM SymbolId} {isConst first : Bool}
    (h : DeclaresIn w file first decl)
    (hstays : ∀ spec ∈ decl.specs, ∀ ident ∈ spec.names.filterMap Tree.ident?, Keeps w file (declare ident))
    (hreaches : ∀ ident, Word w file ident →
      Reaches w file sources (declare ident) (Records file (rangeOf ident)))
    (hident : ident ∈ decl.declaredIdents) :
    Reaches w file sources (do
      for spec in decl.specs do
        let symbols ← (spec.names.filterMap Tree.ident?).mapM declare
        pushSpec spec symbols isConst) (Records file (rangeOf ident)) := by
  obtain ⟨spec, hspec, hident⟩ := List.mem_flatMap.mp hident
  have hnames (spec : Tree) (hspec : spec ∈ decl.specs) :
      Runs (ReadyStaying w file sources) ((spec.names.filterMap Tree.ident?).mapM declare) :=
    .mapM fun ident hident => have := hstays spec hspec ident hident; inferInstance
  have hpush (spec : Tree) (hspec : spec ∈ decl.specs) (symbols : List SymbolId) :
      Runs (ReadyStaying w file sources) (pushSpec spec symbols isConst) :=
    have := (h spec hspec).1
    inferInstance
  have hbody := Reaches.forM (g := fun spec => do
      let symbols ← (spec.names.filterMap Tree.ident?).mapM declare
      pushSpec spec symbols isConst) lasts_records
    (fun spec hspec => .bind (hnames spec hspec) (hpush spec hspec)) hspec
    (.bind_left lasts_records (hnames spec hspec)
      (.mapM lasts_records (fun ident hident => have := hstays spec hspec ident hident; inferInstance) hident
        (hreaches ident ((h spec hspec).2 ident hident).1)) (hpush spec hspec))
  rw [← forIn_eq_forM] at hbody
  simpa only [bind_assoc, bind_pure_unit] using hbody

theorem reaches_declareFields {owner : NamedId} {decl : Tree} (h : DeclaresIn w file true decl)
    (hident : ident ∈ decl.declaredIdents) :
    Reaches w file sources (declareFields owner decl) (Records file (rangeOf ident)) := by
  refine reaches_specs h (fun spec hspec ident hident => ?_) (fun ident hword => reaches_declareField) hident
  obtain ⟨_, hfirst⟩ := (h spec hspec).2 ident hident
  exact keeps_declareField (hfirst.mp rfl)

theorem reaches_declareSpecs {scope : ScopeId} {isConst : Bool} {decl : Tree}
    (h : DeclaresIn w file false decl) (hident : ident ∈ decl.declaredIdents) :
    Reaches w file sources (declareSpecs scope isConst decl) (Records file (rangeOf ident)) := by
  refine reaches_specs h (fun spec hspec ident hident => ?_)
    (fun ident hword => reaches_declareSpecName) hident
  obtain ⟨_, hfirst⟩ := (h spec hspec).2 ident hident
  exact keeps_declareSpecName hfirst

theorem reaches_declareVars {scope : ScopeId} {owner : NamedId} {first : Bool} {item : Tree}
    (kind : item.kind? = some .varDecl) (names : DeclaresIn w file first item)
    (hident : ident ∈ item.declaredIdents) :
    Reaches w file sources (declareItem scope (some owner) first item) (Records file (rangeOf ident)) := by
  unfold declareItem
  simp only [kind]
  cases first with
  | true => exact reaches_declareFields names hident
  | false => exact reaches_declareSpecs names hident

theorem reaches_declareMembers {scope : ScopeId} {owner : NamedId} {first : Bool} {items : List Tree}
    {item : Tree} (h : Items w file first items) (hitem : item ∈ items)
    (hkind : item.kind? = some .varDecl) (hident : ident ∈ item.declaredIdents) :
    Reaches w file sources (declareMembers scope (some owner) first items)
    (Records file (rangeOf ident)) := by
  induction h with
  | nil => cases hitem
  | @vars first item' rest kind names later ih =>
      have hlast : (first && !item'.isA .varDecl) = false := by simp [Tree.isA, kind]
      have hvars : Keeps w file (declareItem scope (some owner) first item') := keeps_declareVars kind names
      have hlater : Keeps w file (declareMembers scope (some owner) false rest) := keeps_declareMembers later
      rw [declareMembers_cons, hlast]
      rcases List.mem_cons.mp hitem with rfl | hitem
      · exact .bind_left lasts_records inferInstance (reaches_declareVars kind names hident) fun _ =>
          inferInstance
      · exact .bind_right inferInstance fun _ => ih hitem
  | @other first item' rest kind sits later ih =>
      have hlast : (first && !item'.isA .varDecl) = first := by simp [Tree.isA, kind]
      have hitem : item ∈ rest := (List.mem_cons.mp hitem).resolve_left fun heq => kind (heq ▸ hkind)
      have hother : Keeps w file (declareItem scope (some owner) first item') := keeps_declareItem (.inr kind)
      rw [declareMembers_cons, hlast]
      exact .bind_right inferInstance fun _ => ih hitem

end Names

section Runs

variable {r : Rules} [KeepsRules w r] (hfits : ∀ source ∈ sources, source.Fits w)

-- The scope of the program.
def openUnit : CheckM ScopeId := do
  let m ← model
  let unit ← addScope
    { kind := .unit, parent := some ((m.packageScope? Vocabulary.enginePackage).getD m.predeclared) }
  modifyModel ({ · with unitScope := unit })
  return unit

-- What is declared when the classes are known.
def declareRest (package : String) (sources : List Source) (unit : ScopeId) : CheckM Unit := do
  sources.forM embedBases
  sources.forM fun source => withinSource package source fun _ _ => declareTypeNames source.tree unit
  sources.forM fun source => withinSource package source fun _ fileClass =>
    declareMembers unit fileClass true source.tree.items

theorem declareSources_eq : declareSources package sources = (do
    let unit ← openUnit
    sources.forM (declareClass package unit)
    declareRest package sources unit) := by
  simp only [declareSources, openUnit, declareRest, forIn_eq_forM, bind_assoc, pure_bind, bind_pure_unit,
    List.forM_eq_forM]

-- The scope around that of the program.
def unitParent (m : Model) : ScopeId := (m.packageScope? Vocabulary.enginePackage).getD m.predeclared

theorem encloses_unitParent {texts : FileId → Option String} {m : Model} {other : FileId}
    {range : Text.ByteRange} (h : m.outline.Nested texts) :
    m.outline.Encloses (unitParent m) other range := by
  have hpredeclared : m.predeclared = ⟨0⟩ := h.predeclared
  unfold unitParent Model.packageScope?
  cases hentry : m.packages.find? (·.1 == Vocabulary.enginePackage) with
  | none =>
      rw [Option.map_none, Option.getD_none, hpredeclared]
      exact h.encloses_root
  | some entry => exact h.encloses_package (List.mem_of_find?_eq_some hentry)

def unitScope (m : Model) : Scope := { kind := .unit, parent := some (unitParent m) }

theorem notes_unit (m : Model) : Notes w (unitScope m) fun id m => { m with unitScope := id } :=
  ⟨fun _ _ => rfl, fun _ _ => rfl, fun _ _ => rfl, fun _ _ => List.prefix_rfl, fun _ _ _ h => h⟩

theorem openUnit_eq : openUnit = (do
    let m ← model
    openScope (unitScope m) fun id m => { m with unitScope := id }) := rfl

instance : Keeps w file openUnit := by
  rw [openUnit_eq]
  refine .bind_from (P := fun m outer => m.outline.Encloses (unitParent outer) file ⟨0, 0⟩) inferInstance
    (fun s hs => encloses_unitParent hs.nested) fun m outer hroom => ?_
  exact keeps_openScope rfl rfl rfl (.inl rfl) (Frame.spans_of_none rfl) hroom (notes_unit outer)

-- The scope of a program lies in no file.
theorem found_openUnit (hs : Sane w file s) : ∃ x, (openUnit.run s).2.model.outline.frames[
    (openUnit.run s).1.index]? = some x ∧ x.file = none := by
  have hroom : s.model.outline.Encloses (unitParent s.model) file ⟨0, 0⟩ := encloses_unitParent hs.nested
  exact ⟨_, found_openScope (w := { w with base := s.model }) rfl rfl (.inl rfl)
    (Frame.spans_of_none rfl) hroom (notes_unit s.model) hs.rebase, rfl⟩

include hfits

theorem ready_declareRest {unit : ScopeId} :
    Runs (ReadyKeeping w file sources) (declareRest package sources unit) := by
  unfold declareRest
  refine .bind (.forM fun source _ => inferInstance) fun _ => .bind (.forM fun source hsource => ?_) fun _ =>
    .forM fun source hsource => ?_
  · exact ready_declareTypeNames hfits hsource
  · exact ready_declareMembers hfits hsource

theorem ready_checkSources : Runs (ReadyKeeping w file sources) (checkSources r package sources) := by
  unfold checkSources
  rw [forIn_eq_forM]
  refine Runs.bind (Runs.forM fun source hsource =>
    ready_withinSource hsource (hfits source hsource) fun base scope owner => ?_) fun _ => inferInstance
  exact .forM fun item hitem => keeps_checkItem (hfits source hsource) hitem

section Unit

variable {unit : ScopeId} (hunit : ∃ x, w.base.outline.frames[unit.index]? = some x ∧ x.file = none)

include hunit

theorem keeps_classes : Keeps w file (sources.forM (declareClass package unit)) := by
  obtain ⟨x, hx, hfile⟩ := hunit
  exact .forM fun source hsource =>
    keeps_declareClass (hfits source hsource) ⟨x, hx, Frame.holds_of_none hfile⟩

theorem reaches_classes : Reaches w file [] (sources.forM (declareClass package unit)) (Ready sources) := by
  obtain ⟨x, hx, hfile⟩ := hunit
  intro s hs hready source hsource
  have hone : Ready [source] ((sources.forM (declareClass package unit)).run s).2 := by
    refine Reaches.forM (fun _ _ hext h => h.mono hext)
      (fun other hother => ?_) hsource (fun s _ _ => ?_) s hs hready
    · have hclass : Keeps w file (declareClass package unit other) :=
        keeps_declareClass (hfits other hother) ⟨x, hx, Frame.holds_of_none hfile⟩
      infer_instance
    · rw [Ready, List.forall_mem_singleton]
      exact ⟨⟨_, List.mem_append_right _ List.mem_cons_self⟩, _, List.mem_append_right _ List.mem_cons_self⟩
  exact hone source List.mem_cons_self

-- What is done when the classes are known keeps the state from the start.
theorem keeps_classes_bind {rest : CheckM Unit} (hrest : Runs (ReadyKeeping w file sources) rest) :
    Keeps w file (sources.forM (declareClass package unit) >>=
      fun _ => declareRest package sources unit >>= fun _ => rest) := by
  refine ⟨fun s => ?_⟩
  have hlater : Runs (ReadyKeeping w file sources) (declareRest package sources unit >>= fun _ => rest) :=
    .bind (ready_declareRest hfits) fun _ => hrest
  have hfirst : Keeping w file s ((sources.forM (declareClass package unit)).run s).2 :=
    (keeps_classes hfits hunit).run s
  have hnext (hs : Sane w file s) :=
    hlater.run ((sources.forM (declareClass package unit)).run s).2 (hfirst.sane hs)
    (reaches_classes hfits hunit s hs nofun)
  refine ⟨⟨fun hs => (hnext hs).sane (hfirst.sane hs), fun hs => ?_⟩, fun hs ht hagrees => ?_⟩
  · exact (hfirst.extending hs).trans ((hnext hs).extending (hfirst.sane hs))
  · have hmid := hfirst.sane hs
    exact (hnext hs).tables hmid (hfirst.tables hs ht (((hnext hs).extending hmid).agrees hagrees)) hagrees

end Unit

theorem keeps_declareSources {rest : CheckM Unit}
    (hrest : ∀ base, Runs (ReadyKeeping { w with base } file sources) rest) :
    Keeps w file (declareSources package sources >>= fun _ => rest) := by
  rw [declareSources_eq]
  simp only [bind_assoc]
  exact .bind_from (P := fun m unit => ∃ x, m.outline.frames[unit.index]? = some x ∧ x.file = none)
    inferInstance
    (fun _ hs => found_openUnit hs) fun m unit hunit =>
    keeps_classes_bind (w := { w with base := m }) hfits hunit (hrest m)

-- Every variable at the top of a file is declared.
theorem reaches_declareRest {unit : ScopeId} (hsource : source ∈ sources) {ident : Token}
    (hident : ident ∈ source.tree.varIdents) :
    Reaches w file sources (declareRest package sources unit) (Records source.file (rangeOf ident)) := by
  obtain ⟨item, hitem, hident⟩ := List.mem_flatMap.mp hident
  have hkind := Tree.kind?_of_mem_childrenOf hitem
  have hitem : item ∈ source.tree.items := by
    refine List.mem_filter.mpr ⟨Tree.mem_children_of_mem_childrenWith hitem, ?_⟩
    rw [hkind]
    rfl
  unfold declareRest
  refine .bind_right (.forM fun source _ => inferInstance) fun _ =>
    .bind_right (.forM fun source hsource => (ready_declareTypeNames hfits hsource).readyStaying) fun _ => ?_
  refine .forM lasts_records (fun source hsource => (ready_declareMembers hfits hsource).readyStaying)
    hsource ?_
  exact reaches_withinSource lasts_records hsource (hfits source hsource) fun base scope owner =>
    reaches_declareMembers (hfits source hsource).items hitem hkind hident

theorem ready_last {unit : ScopeId} :
    Reaches w file sources (declareRest package sources unit) (Ready sources) := fun s hs hready =>
  hready.mono (((ready_declareRest hfits).run s hs hready).extending hs)

theorem reaches_declareSources {P : State → Prop} {rest : CheckM Unit} (hP : Lasts P)
    (hrest : ∀ base, Runs (ReadyKeeping { w with base } file sources) rest)
    (h : ∀ base unit, Reaches { w with base } file sources (declareRest package sources unit) P) :
    Reaches w file [] (declareSources package sources >>= fun _ => rest) P := by
  rw [declareSources_eq]
  simp only [bind_assoc]
  refine .bind_from (Q := fun m unit => ∃ x, m.outline.frames[unit.index]? = some x ∧ x.file = none)
    inferInstance (fun _ hs => found_openUnit hs) fun m unit hunit s hs hready => ?_
  have hclasses : Keeps { w with base := m } file (sources.forM (declareClass package unit)) :=
    keeps_classes (w := { w with base := m }) hfits hunit
  have hrest' : Runs (ReadyKeeping { w with base := m } file sources) (declareRest package sources unit) :=
    ready_declareRest (w := { w with base := m }) hfits
  have hlater :
      Reaches { w with base := m } file sources (declareRest package sources unit >>= fun _ => rest) P :=
    .bind_left hP hrest'.readyStaying (h m unit) fun _ => (hrest m).readyStaying
  exact hlater _ ((hclasses.run s).sane hs)
    (reaches_classes (w := { w with base := m }) hfits hunit s hs nofun)

end Runs

-- The setting of a program: its files, and the symbols that are found in the end.
structure Hosts (w : Setting) (package : String) (sources : List Source) : Prop where
  origins : (checkProgram package sources).model.origins = w.origins
  bundledCount : w.bundledCount = preludeCount
  bundledText : ∀ file, file.isBundled = true → w.text? file = none
  fits : ∀ source ∈ sources, source.Fits w

def checkWhole (package : String) (sources : List Source) : CheckM Unit := do
  declareSources package sources
  resolveDeclarations (rulesFor (sources.map (·.tree)))
  checkSources (rulesFor (sources.map (·.tree))) package sources

theorem exists_checked (package : String) (sources : List Source) :
    ∃ s, ((checkWhole package sources).run prelude).2 = s ∧ checkProgram package sources =
    ⟨s.model, s.info, s.problems.reverse.filter (!·.1.isBundled), s.crashed⟩ := by
  unfold checkProgram checkWhole
  exact ⟨_, rfl, rfl⟩

theorem sane_prelude (w : Region) : Sane ⟨w, prelude.model⟩ default prelude := by
  have hnested := nested_prelude w.text?
  obtain ⟨s, -, hprelude⟩ := exists_bundled
  rw [hprelude] at hnested ⊢
  exact sane_of_nested hnested

-- What holds of a checked program.
structure Checked (w : Setting) (sources : List Source) (result : Result) : Prop where
  model : result.model.Fits w
  agrees : result.model.Agrees w
  bundled : prelude.model.Agrees w
  info : result.info.Fits w
  problems : ∀ p ∈ result.problems, InText w p.1 p.2.1 ∧ p.2.2.isOfResource = false
  crashed : w.strict → result.crashed = false
  recorded : ∀ source ∈ sources, ∀ ident ∈ source.tree.varIdents,
    result.info.defs.contains (source.file, rangeOf ident) = true
  nested : result.model.outline.Nested w.text?
  opened : ∀ source ∈ sources, ∃ scope, (source.file, scope) ∈ result.model.fileScopes

theorem checked_checkProgram {w : Setting} (h : Hosts w package sources) :
    Checked w sources (checkProgram package sources) := by
  obtain ⟨stage, hstage⟩ : ∃ stage : Stage, stage = ⟨⟨w, .empty 0⟩, prelude.model⟩ := ⟨_, rfl⟩
  have hprelude : Sane stage default prelude := hstage ▸ sane_prelude ⟨w, .empty 0⟩
  obtain rfl : stage.toSetting = w := by rw [hstage]
  have hrest (base : Model) : Runs (ReadyKeeping { stage with base } default sources) (do
      resolveDeclarations (rulesFor (sources.map (·.tree)))
      checkSources (rulesFor (sources.map (·.tree))) package sources) :=
    .bind inferInstance fun _ => ready_checkSources h.fits
  have hrun : Keeping stage default prelude ((checkWhole package sources).run prelude).2 :=
    (keeps_declareSources h.fits hrest).run prelude
  have hready : Ready sources ((checkWhole package sources).run prelude).2 :=
    reaches_declareSources h.fits (fun _ _ hext hready => hready.mono hext) hrest
      (fun base _ => ready_last (w := { stage with base }) h.fits)
      prelude hprelude nofun
  have hrecords (source : Source) (hsource : source ∈ sources) (ident : Token)
      (hident : ident ∈ source.tree.varIdents) :
      Records source.file (rangeOf ident) ((checkWhole package sources).run prelude).2 :=
    reaches_declareSources h.fits lasts_records hrest (fun base _ =>
      reaches_declareRest (w := { stage with base }) h.fits hsource hident) prelude hprelude nofun
  obtain ⟨s, hs, hchecked⟩ := exists_checked package sources
  have horigins := h.origins
  rw [hs] at hrun hrecords hready
  rw [hchecked] at horigins ⊢
  have hagrees : s.model.Agrees stage := by
    unfold Model.Agrees
    exact horigins ▸ List.prefix_rfl
  have hsane := hrun.sane hprelude
  have hfirst := (hrun.extending hprelude).agrees hagrees
  have htables := hrun.tables hprelude (tables_prelude hfirst h.bundledCount h.bundledText) hagrees
  exact {
    model := htables.model
    agrees := hagrees
    bundled := hfirst
    info := htables.info
    problems := fun p hp => hsane.problems p (List.mem_reverse.mp (List.mem_filter.mp hp).1)
    crashed := hsane.crashed
    recorded := hrecords
    nested := hsane.nested
    opened := fun source hsource => (hready source hsource).2 }

end SpriteScript.Check
