import SpriteScript.Proofs.Descent
import SpriteScript.Proofs.Identifiers.OpenTypes

-- Finding what types stand for is a descent through their declarations. A type that stands for
-- itself is come back to.
namespace SpriteScript.Check

-- The place of the name that the type is declared with on the right.
def PendingDecl.base? (p : PendingDecl) : Option (FileId × Text.ByteRange) :=
  (p.decl.type?.bind embeddedName?).map fun ident => (p.context.file, rangeOf ident)

-- The first type is declared with the name of the second one, as far as this was found out.
def State.Leads (s : State) (a b : NamedId) : Prop :=
  ∃ d ∈ s.typeDecls, d.1 = a ∧ ∃ key x, d.2.base? = some key ∧ s.info.uses[key]? = some x ∧
    s.model.NamesType x b ∧ s.Declares b

-- The type that the first one is declared with is one of the others, unless it is not known what is meant.
def State.Closes (s : State) (missing : List Part) (a : NamedId) (before : List NamedId) : Prop :=
  ∀ d ∈ s.typeDecls, d.1 = a → ∀ key, d.2.base? = some key → key ∈ keysOf missing ∨
    ∃ x, s.info.uses[key]? = some x ∧ ∀ b, s.Declares b → s.model.NamesType x b → b ∈ before

def State.ReportsRecursion (s : State) : Prop := ∃ name, s.Reports (.recursiveType name)

def State.IsLeft (s : State) (a : NamedId) : Prop := s.Declares a ∧ ¬ s.model.Awaits a

-- A check that is looking into types. Names for which no type was found are missing.
structure Resolving (ground : Ground) (file : FileId) (missing rest : List Part) (s : State) : Prop where
  ahead : Ahead ground file (missing ++ rest) s
  apart : (s.typeDecls.map Prod.fst).Nodup
  sources : ∀ d ∈ s.typeDecls, d.2.context.file.isBundled = false
  nodup : s.resolving.Nodup
  declared : ∀ a ∈ s.resolving, s.Declares a
  descent : Descent s.Leads (s.Closes missing) s.ReportsRecursion s.resolving s.IsLeft

variable {ground : Ground} {file : FileId} {missing missing' rest rest' parts : List Part} {s s' : State}
variable {id a b : NamedId} {fuel : Nat} {pending : PendingDecl} {t : Tree} {ident : Token} {α : Type}

section Moves

theorem State.Declares.index_lt (h : s.Declares a) (hknown : s.Known) : a.index < s.model.named.size := by
  obtain ⟨d, hd, rfl⟩ := h
  exact hknown d hd

theorem State.declares_congr (h : s'.typeDecls = s.typeDecls) : s'.Declares a ↔ s.Declares a := by
  unfold State.Declares
  rw [h]

section Same

variable (hdecls : s'.typeDecls = s.typeDecls) (hinfo : s'.info = s.info)
variable (hsymbols : s'.model.symbols = s.model.symbols)

include hdecls hinfo hsymbols

theorem State.leads_congr : s'.Leads = s.Leads := by
  funext a b
  simp only [State.Leads, State.declares_congr hdecls, Model.namesType_congr hsymbols, hdecls, hinfo]

theorem State.closes_congr : s'.Closes missing = s.Closes missing := by
  funext a before
  simp only [State.Closes, State.declares_congr hdecls, Model.namesType_congr hsymbols, hdecls, hinfo]

end Same

theorem Unreported.reportsRecursion (h : Unreported Problem.IsRecursion s s') :
    s'.ReportsRecursion ↔ s.ReportsRecursion :=
  exists_congr fun name => h _ ⟨name, rfl⟩

-- Whatever is found out about other things, the descent goes on.
theorem Resolving.next {other : FileId} (h : Resolving ground file missing rest s)
    (hadding : Adding none s s') (hkeeps : s.info.Keeps s'.info)
    (hahead : Ahead ground other (missing' ++ missing ++ rest') s') :
    Resolving ground other (missing' ++ missing) rest' s' := by
  have hdeclares (a : NamedId) : s'.Declares a ↔ s.Declares a := State.declares_congr hadding.typeDecls
  have hnames {x : SymbolId} {b : NamedId} (hb : s.Declares b) :
      s'.model.NamesType x b ↔ s.model.NamesType x b :=
    hadding.names x b (hb.index_lt h.ahead.known)
  refine ⟨hahead, ?_, ?_, ?_, fun a ha => ?_, ?_⟩
  · rw [hadding.typeDecls]
    exact h.apart
  · rw [hadding.typeDecls]
    exact h.sources
  · rw [hadding.resolving]
    exact h.nodup
  · rw [hadding.resolving] at ha
    exact (hdeclares a).mpr (h.declared a ha)
  · rw [hadding.resolving]
    refine h.descent.mono (fun a b => ?_)
      (fun a before _ hclosed d hd hda key hkey => ?_) hadding.silent.reportsRecursion fun a => ?_
    · rintro ⟨d, hd, hda, key, x, hkey, hx, hb, hdecl⟩
      exact ⟨d, hadding.typeDecls ▸ hd, hda, key, x, hkey, hkeeps.uses key x hx, (hnames hdecl).mpr hb,
        (hdeclares b).mpr hdecl⟩
    · rw [hadding.typeDecls] at hd
      rcases hclosed d hd hda key hkey with hmissing | ⟨x, hx, hbefore⟩
      · rw [keysOf_append]
        exact .inl (List.mem_append_right _ hmissing)
      · refine .inr ⟨x, hkeeps.uses key x hx, fun b hb hname => ?_⟩
        rw [hdeclares] at hb
        exact hbefore b hb ((hnames hb).mp hname)
    · unfold State.IsLeft
      rw [hdeclares]
      refine and_congr_right fun hdecl => not_congr ?_
      have hlt := hdecl.index_lt h.ahead.known
      unfold Model.Awaits
      rw [hadding.pending a hlt nofun, and_iff_right hlt, and_iff_right (hlt.trans_le hadding.size)]

end Moves

section Names

-- The name of a type is noted to mean a symbol, whose type is found, or it is not noted.
theorem ahead_looksUp {r : Ty × State} (h : LooksUp ident s r)
    (hs : Ahead ground file (partsIn file [.token ident] ++ rest) s) :
    (∃ x, r.2.info.uses[(file, rangeOf ident)]? = some x ∧ (r.2.model.symbol x).kind = .typeName ∧
      r.1 = (r.2.model.symbol x).ty ∧ Ahead ground file rest r.2) ∨
    r.1 = .invalid ∧ Ahead ground file (partsIn file [.token ident] ++ rest) r.2 := by
  rcases h with ⟨x, hkind, rfl⟩ | ⟨hinvalid, hsame | ⟨p, -, hproblem⟩⟩
  · refine .inl ⟨x, ?_, hkind, rfl, reads_recordUse ident x rest s hs⟩
    change (s.info.recordUse s.context.file (rangeOf ident) x).uses[(file, rangeOf ident)]? = some x
    rw [Info.uses_recordUse, hs.context, Std.HashMap.getElem?_insert_self]
  · exact .inr ⟨hinvalid, hsame ▸ hs⟩
  · exact .inr ⟨hinvalid, hproblem ▸ Runs.run (R := Passing ground file) s _ hs⟩

theorem ahead_typeNamed (qualifier? : Option Token) (ident : Token)
    (hs : Ahead ground file (partsIn file ((qualifier?.toList ++ [ident]).map Tree.token) ++ rest) s) :
    (∃ x, ((typeNamed qualifier? ident).run s).2.info.uses[(file, rangeOf ident)]? = some x ∧
      (((typeNamed qualifier? ident).run s).2.model.symbol x).kind = .typeName ∧
      ((typeNamed qualifier? ident).run s).1 = (((typeNamed qualifier? ident).run s).2.model.symbol x).ty ∧
      Ahead ground file rest ((typeNamed qualifier? ident).run s).2) ∨
    ((typeNamed qualifier? ident).run s).1 = .invalid ∧
      Ahead ground file (partsIn file [.token ident] ++ rest) ((typeNamed qualifier? ident).run s).2 := by
  cases qualifier? with
  | none => exact ahead_looksUp (looksUp_typeOfName ident s) hs
  | some qualifier =>
      have hfound := reads_packageOf? qualifier (partsIn file [.token ident] ++ rest) s hs
      exact ahead_looksUp (looksUp_typeOfQualified qualifier ident s) hfound

-- What is not declared is not looked into.
theorem run_resolveNamed_of_not_declares (h : ¬ s.Declares id) (fuel : Nat) :
    (resolveNamed fuel id).run s = (⟨⟩, s) := by
  cases fuel with
  | zero => rfl
  | succ fuel =>
      rcases resolveNamed_cases fuel id s with ⟨-, hrun⟩ | ⟨found, -, hfound, -⟩
      · exact hrun
      · exact absurd ⟨found, List.mem_of_find?_eq_some hfound, beq_iff_eq.mp (List.find?_some hfound :)⟩ h

end Names

section Descending

-- A type has one declaration.
theorem Resolving.unique {found d : NamedId × PendingDecl} (h : Resolving ground file missing rest s)
    (hfound : s.typeDecls.find? (·.1 == id) = some found) (hd : d ∈ s.typeDecls) (hid : d.1 = id) :
    d = found :=
  List.inj_on_of_nodup_map h.apart hd (List.mem_of_find?_eq_some hfound)
    (hid.trans (beq_iff_eq.mp (List.find?_some hfound :)).symm)

-- There is fuel left as long as types are looked into.
theorem Resolving.length_le (h : Resolving ground file missing rest s) :
    s.resolving.length ≤ s.typeDecls.length := by
  have hsub : s.resolving ⊆ s.typeDecls.map Prod.fst := fun a ha => by
    obtain ⟨d, hd, hda⟩ := h.declared a ha
    exact List.mem_map.mpr ⟨d, hd, hda⟩
  exact (h.nodup.subperm hsub).length_le.trans_eq (List.length_map _)

-- What the search for a type with so much fuel does to the descent.
def Descends (ground : Ground) (fuel : Nat) : Prop :=
  ∀ file missing rest s id, Resolving ground file missing rest s →
    s.typeDecls.length < fuel + s.resolving.length → (∀ b ∈ s.resolving.head?, s.Leads b id) →
      ∃ missing', Resolving ground file (missing' ++ missing) rest ((resolveNamed fuel id).run s).2

-- The type is declared with nothing that leads on.
theorem closes_of_base?_none {found : NamedId × PendingDecl} {before : List NamedId}
    (h : Resolving ground file missing rest s) (hfound : s.typeDecls.find? (·.1 == id) = some found)
    (hbase : found.2.base? = none) :
    s.Closes missing id before := by
  intro d hd hid key hkey
  rw [h.unique hfound hd hid, hbase] at hkey
  cases hkey

-- The type that is looked into may be left.
structure Closing (ground : Ground) (file : FileId) (missing rest : List Part) (s : State)
    (id : NamedId) : Prop extends Resolving ground file missing rest s where
  closes : ∀ l, (∀ b, b ∈ l ↔ s.IsLeft b) → s.Closes missing id l

-- A type that is found is looked into.
def typeFound (fuel : Nat) (t : Tree) : CheckM Underlying := do
  let ty ← typeOf t
  if let some other := ty.named? then
    resolveNamed fuel other
  return underlyingOf (← model) ty

theorem snd_run_typeFound (fuel : Nat) (t : Tree) (s : State) : ((typeFound fuel t).run s).2 =
    match ((typeOf t).run s).1.named? with
    | some other => ((resolveNamed fuel other).run ((typeOf t).run s).2).2
    | none => ((typeOf t).run s).2 := by
  rw [typeFound, StateT.run_bind]
  obtain ⟨ty, found, hfound⟩ : ∃ ty found, (typeOf t).run s = (ty, found) := ⟨_, _, rfl⟩
  rw [hfound]
  change (StateT.run (_ : CheckM Underlying) found).2 = _
  dsimp only
  cases ty.named? <;> rfl

-- A type that is declared with a name waits for the types which that name means.
theorem closes_of_use {found : NamedId × PendingDecl} {key : FileId × Text.ByteRange} {x : SymbolId}
    {before : List NamedId} (h : Resolving ground file missing rest s)
    (hfound : s.typeDecls.find? (·.1 == id) = some found) (hbase : found.2.base? = some key)
    (hdecls : s'.typeDecls = s.typeDecls) (huse : s'.info.uses[key]? = some x)
    (hbefore : ∀ b, s'.Declares b → s'.model.NamesType x b → b ∈ before) : s'.Closes missing' id before := by
  intro d hd hid key' hkey
  rw [hdecls] at hd
  rw [h.unique hfound hd hid, hbase, Option.some.injEq] at hkey
  exact .inr ⟨x, hkey ▸ huse, hbefore⟩

-- For no type, if it is missing what the name means.
theorem closes_of_missing {found : NamedId × PendingDecl} {key : FileId × Text.ByteRange}
    {before : List NamedId} (h : Resolving ground file missing rest s)
    (hfound : s.typeDecls.find? (·.1 == id) = some found) (hbase : found.2.base? = some key)
    (hmissing : key ∈ keysOf missing') : s.Closes missing' id before := by
  intro d hd hid key' hkey
  rw [h.unique hfound hd hid, hbase, Option.some.injEq] at hkey
  exact .inl (hkey ▸ hmissing)

-- The type that the name means is looked into before the one that is declared with it is left.
theorem closing_resolveNamed (hstep : Descends ground fuel) {found : NamedId × PendingDecl}
    {key : FileId × Text.ByteRange} {x : SymbolId} {other : NamedId}
    (h : Resolving ground file missing rest s) (hfound : s.typeDecls.find? (·.1 == id) = some found)
    (hpath : s.resolving.head? = some id) (hfuel : s.typeDecls.length < fuel + s.resolving.length)
    (hbase : found.2.base? = some key) (huse : s.info.uses[key]? = some x)
    (hnames : ∀ n, s.model.NamesType x n ↔ other = n) :
    ∃ missing', Closing ground file (missing' ++ missing) rest ((resolveNamed fuel other).run s).2 id := by
  by_cases hdecl : s.Declares other
  · have hlead : s.Leads id other :=
      ⟨found, List.mem_of_find?_eq_some hfound, beq_iff_eq.mp (List.find?_some hfound :), key, x, hbase, huse,
        (hnames other).mpr rfl, hdecl⟩
    obtain ⟨missing', hdone⟩ := hstep file missing rest s other h hfuel fun b hb => by
      rw [hpath] at hb
      exact Option.some.inj hb ▸ hlead
    have hmoved : Unmoved s ((resolveNamed fuel other).run s).2 := Runs.run s
    have hkept : s.info.Keeps ((resolveNamed fuel other).run s).2.info :=
      keeps_of_ahead (fun facts => Runs.run (R := Passing (ground.learn facts) file) s _) h.ahead
    have hknown : ¬ ((resolveNamed fuel other).run s).2.model.Awaits other := by
      obtain ⟨fuel, rfl⟩ : ∃ n, fuel = n + 1 := Nat.exists_eq_succ_of_ne_zero fun hzero => by
        have := h.length_le
        omega
      exact not_awaits_resolveNamed hdecl fuel
    refine ⟨missing', hdone, fun l hl => ?_⟩
    refine closes_of_use h hfound hbase hmoved.typeDecls (hkept.uses key x huse) fun b hb hname => ?_
    have hbefore : s.Declares b := (State.declares_congr hmoved.typeDecls).mp hb
    rw [hmoved.names x b (hbefore.index_lt h.ahead.known), hnames] at hname
    exact hname ▸ (hl other).mpr ⟨hname ▸ hb, hknown⟩
  · rw [run_resolveNamed_of_not_declares hdecl]
    refine ⟨[], h, fun l _ => closes_of_use h hfound hbase rfl huse fun b hb hname => ?_⟩
    exact absurd ((hnames b).mp hname ▸ hb) hdecl

-- The name that a type is declared with is looked into, if it is the name of a type.
theorem closing_typeFound_name (hstep : Descends ground fuel) {found : NamedId × PendingDecl}
    (h : Resolving ground file missing (partsIn file [t] ++ rest) s) (hfile : found.2.context.file = file)
    (hfound : s.typeDecls.find? (·.1 == id) = some found) (hpath : s.resolving.head? = some id)
    (hfuel : s.typeDecls.length < fuel + s.resolving.length) (ht : found.2.decl.type? = some t)
    (hident : embeddedName? t = some ident) :
    ∃ missing', Closing ground file (missing' ++ missing) rest ((typeFound fuel t).run s).2 id := by
  have hahead : Ahead ground file (partsIn file [t] ++ (missing ++ rest)) s :=
    h.ahead.perm (List.perm_append_comm_assoc _ _ _)
  have hkeeps : s.info.Keeps ((typeOf t).run s).2.info := keeps_of_visits (fun _ => reads_typeOf t) hahead
  have hadding : Adding none s ((typeOf t).run s).2 := Runs.run s
  have hbase : found.2.base? = some (file, rangeOf ident) := by
    rw [PendingDecl.base?, ht, Option.bind_some, hident, Option.map_some, hfile]
  obtain ⟨u, -, hbelow, hrun⟩ := typeOf_of_embeddedName? hident
  have hnamed := ahead_typeNamed u.qualifier? ident (hahead.below hbelow)
  rw [← hrun] at hnamed
  rw [snd_run_typeFound]
  obtain ⟨ty, found', hfound'⟩ : ∃ ty found', (typeOf t).run s = (ty, found') := ⟨_, _, rfl⟩
  rw [hfound'] at hkeeps hadding hnamed ⊢
  dsimp only at hkeeps hadding hnamed ⊢
  rw [← hadding.typeDecls] at hfound hfuel
  rw [← hadding.resolving] at hpath hfuel
  rcases hnamed with ⟨x, huse, hkind, hty, hmid⟩ | ⟨rfl, hmid⟩
  · have hnext : Resolving ground file ([] ++ missing) rest found' := h.next hadding hkeeps hmid
    have hnames (n : NamedId) : found'.model.NamesType x n ↔ ty.named? = some n := by
      rw [hty]
      exact and_iff_right hkind
    cases hother : ty.named? with
    | none =>
        refine ⟨[], hnext, fun l _ => closes_of_use hnext hfound hbase rfl huse fun b _ hb => ?_⟩
        rw [hnames, hother] at hb
        cases hb
    | some other =>
        refine closing_resolveNamed hstep hnext hfound hpath hfuel hbase huse fun n => ?_
        rw [hnames, hother, Option.some.injEq]
  · have hnext : Resolving ground file (partsIn file [.token ident] ++ missing) rest found' :=
      h.next hadding hkeeps (by rwa [List.append_assoc])
    refine ⟨partsIn file [.token ident], hnext, fun l _ => closes_of_missing hnext hfound hbase ?_⟩
    rw [keysOf_append]
    exact List.mem_append_left _ List.mem_cons_self

-- Other types lead nowhere.
theorem closing_of_adding {a : CheckM α} [hadding : Runs (Adding none) a]
    (hreads : ∀ ground, Reads ground file [t] a) {found : NamedId × PendingDecl}
    (h : Resolving ground file missing (partsIn file [t] ++ rest) s)
    (hfound : s.typeDecls.find? (·.1 == id) = some found) (hbase : found.2.base? = none) :
    Closing ground file ([] ++ missing) rest (a.run s).2 id := by
  have hahead : Ahead ground file (partsIn file [t] ++ (missing ++ rest)) s :=
    h.ahead.perm (List.perm_append_comm_assoc _ _ _)
  have hnext : Resolving ground file ([] ++ missing) rest (a.run s).2 :=
    h.next (hadding.run s) (keeps_of_visits hreads hahead) (hreads ground _ s hahead)
  refine ⟨hnext, fun l _ => closes_of_base?_none hnext ?_ hbase⟩
  rw [(hadding.run s).typeDecls, hfound]

theorem closing_typeFound_fresh {found : NamedId × PendingDecl}
    (h : Resolving ground file missing (partsIn file [t] ++ rest) s)
    (hfound : s.typeDecls.find? (·.1 == id) = some found) (ht : found.2.decl.type? = some t)
    (hident : embeddedName? t = none) :
    Closing ground file ([] ++ missing) rest ((typeFound fuel t).run s).2 id := by
  have hbase : found.2.base? = none := by
    rw [PendingDecl.base?, ht, Option.bind_some, hident]
    rfl
  have hclosing : Closing ground file ([] ++ missing) rest ((typeOf t).run s).2 id :=
    closing_of_adding (fun _ => reads_typeOf t) h hfound hbase
  have hunmoved : Unmoved s ((typeOf t).run s).2 := Runs.run s
  have hfresh := fresh_typeOf hident s
  rw [snd_run_typeFound]
  split
  case h_1 other hother =>
    have hnot : ¬ ((typeOf t).run s).2.Declares other := fun hdecl =>
      absurd (hfresh other hother).1
        (Nat.not_le_of_lt (((State.declares_congr hunmoved.typeDecls).mp hdecl).index_lt h.ahead.known))
    rw [run_resolveNamed_of_not_declares hnot]
    exact hclosing
  case h_2 => exact hclosing

theorem closing_lookInto (hstep : Descends ground fuel) {found : NamedId × PendingDecl}
    (h : Resolving ground found.2.context.file missing (found.2.typeParts ++ rest) s)
    (hfound : s.typeDecls.find? (·.1 == id) = some found) (hpath : s.resolving.head? = some id)
    (hfuel : s.typeDecls.length < fuel + s.resolving.length) : ∃ missing',
      Closing ground found.2.context.file (missing' ++ missing) rest
      ((lookInto fuel id found.2).run s).2 id := by
  cases ht : found.2.decl.type? with
  | none =>
      have hbase : found.2.base? = none := by rw [PendingDecl.base?, ht]; rfl
      have hrest : Resolving ground found.2.context.file ([] ++ missing) rest s := by
        rwa [PendingDecl.typeParts, ht] at h
      unfold lookInto
      rw [ht]
      exact ⟨[], hrest, fun l _ => closes_of_base?_none hrest hfound hbase⟩
  | some t =>
      rw [PendingDecl.typeParts, ht] at h
      have hplain (hident : embeddedName? t = none) : found.2.base? = none := by
        rw [PendingDecl.base?, ht, Option.bind_some, hident]
        rfl
      unfold lookInto
      rw [ht]
      dsimp only
      split
      case h_1 hkind =>
        refine ⟨[], closing_of_adding (fun _ => (reads_structFields reads_typeOf t id).before fun _ =>
          inferInstance) h hfound (hplain ?_)⟩
        unfold embeddedName? embeddedName?.go
        rw [hkind]
      case h_2 hkind =>
        refine ⟨[], closing_of_adding
          (fun _ => (reads_interfaceMethods reads_typeOf t id).before fun _ => inferInstance) h hfound
          (hplain ?_)⟩
        unfold embeddedName? embeddedName?.go
        rw [hkind]
      case h_3 =>
        cases hident : embeddedName? t with
        | none => exact ⟨[], closing_typeFound_fresh h hfound ht hident⟩
        | some ident => exact closing_typeFound_name hstep h rfl hfound hpath hfuel ht hident

theorem Resolving.inContext (h : Resolving ground file missing rest s) (c : Context) :
    Resolving ground c.file missing rest { s with context := c } :=
  { h with
    ahead :=
      h.ahead.next rfl (List.Subperm.refl _) rfl h.ahead.known
      (h.ahead.valued.of_model rfl List.prefix_rfl rfl)
    descent := h.descent }

theorem Closing.inContext (h : Closing ground file missing rest s id) (c : Context) :
    Closing ground c.file missing rest { s with context := c } id :=
  ⟨h.toResolving.inContext c, h.closes⟩

-- A type that is awaited is entered.
theorem Resolving.enter {found : NamedId × PendingDecl} (h : Resolving ground file missing rest s)
    (hpending : (s.model.namedType id).isPending = true) (hfound : s.typeDecls.find? (·.1 == id) = some found)
    (hfree : id ∉ s.resolving) (hlead : ∀ b ∈ s.resolving.head?, s.Leads b id) :
    Resolving ground file missing (found.2.typeParts ++ rest) { s with resolving := id :: s.resolving } := by
  have hdecl : s.Declares id :=
    ⟨found, List.mem_of_find?_eq_some hfound, beq_iff_eq.mp (List.find?_some hfound :)⟩
  have hopen : s.isOpen id = true := Bool.and_eq_true_iff.mpr ⟨hpending, by simpa using hfree⟩
  have hleft : ¬ s.IsLeft id := fun hleft => hleft.2 ⟨hdecl.index_lt h.ahead.known, hpending⟩
  exact {
    ahead := (h.ahead.startType hfound hopen).perm (List.perm_append_comm_assoc _ _ _)
    apart := h.apart
    sources := h.sources
    nodup := List.nodup_cons.mpr ⟨hfree, h.nodup⟩
    declared := List.forall_mem_cons.mpr ⟨hdecl, h.declared⟩
    descent := h.descent.enter hleft hlead }

-- A type is left when it is closed.
theorem isLeft_closeType {u : Underlying} (hu : u ≠ .pending) (hid : s.Declares id) :
    ((closeType id u).run s).2.IsLeft a ↔ a = id ∨ s.IsLeft a := by
  have hdecls : ((closeType id u).run s).2.typeDecls = s.typeDecls := by rw [run_closeType]
  unfold State.IsLeft
  rw [State.declares_congr hdecls, run_closeType]
  dsimp only
  split
  case isTrue =>
    by_cases ha : a = id
    · subst ha
      exact iff_of_true ⟨hid, Model.not_awaits_modifyNamed (isPending_with hu)⟩ (.inl rfl)
    · rw [or_iff_right ha]
      unfold Model.Awaits
      rw [s.model.namedType_modifyNamed_of_ne _ ha, s.model.size_modifyNamed]
  case isFalse hknown =>
    by_cases ha : a = id
    · subst ha
      exact iff_of_true ⟨hid, fun hawaits => hknown hawaits.2⟩ (.inl rfl)
    · rw [or_iff_right ha]

-- When it is known what it stands for it is left.
theorem Closing.leave {path : List NamedId} {u : Underlying} (h : Closing ground file missing rest s id)
    (hpath : s.resolving = id :: path) (hu : u ≠ .pending) :
    Resolving ground file missing rest ((closeType id u).run s).2 := by
  have hid : s.Declares id := h.declared id (hpath ▸ List.mem_cons_self)
  have hleft (a : NamedId) : ((closeType id u).run s).2.IsLeft a ↔ a = id ∨ s.IsLeft a :=
    isLeft_closeType hu hid
  have hahead : Ahead ground file (missing ++ rest) ((closeType id u).run s).2 :=
    (passing_closeType hu).run s _ h.ahead
  have hnodup := hpath ▸ h.nodup
  have hdescent := h.descent
  rw [hpath] at hdescent
  have hend := hdescent.leave (List.nodup_cons.mp hnodup).1 (fun _ l hl => h.closes l hl) hleft
  have hsymbols : ((closeType id u).run s).2.model.symbols = s.model.symbols := by
    rw [run_closeType]
    dsimp only
    split <;> rfl
  have hresolving : ((closeType id u).run s).2.resolving = path := by
    rw [run_closeType, hpath, List.erase_cons_head]
  have hdecls : ((closeType id u).run s).2.typeDecls = s.typeDecls := by rw [run_closeType]
  have hinfo : ((closeType id u).run s).2.info = s.info := by rw [run_closeType]
  have hproblems : ((closeType id u).run s).2.problems = s.problems := by rw [run_closeType]
  exact {
    ahead := hahead
    apart := hdecls ▸ h.apart
    sources := hdecls ▸ h.sources
    nodup := hresolving ▸ (List.nodup_cons.mp hnodup).2
    declared :=
      fun a ha =>
        (State.declares_congr hdecls).mpr (h.declared a (hpath ▸ List.mem_cons_of_mem _ (hresolving ▸ ha)))
    descent := by
      rw [State.leads_congr hdecls hinfo hsymbols, State.closes_congr hdecls hinfo hsymbols, hresolving]
      unfold State.ReportsRecursion State.Reports
      rw [hproblems]
      exact hend }

-- A type that leads back to itself is reported.
theorem Resolving.report {name : String} {found : NamedId × PendingDecl}
    (h : Resolving ground file missing rest s) (hfound : s.typeDecls.find? (·.1 == id) = some found)
    (hentered : id ∈ s.resolving) (hlead : ∀ b ∈ s.resolving.head?, s.Leads b id) :
    Resolving ground file missing rest ((reportRecursion id name found.2).run s).2 :=
  { h with
    ahead := Runs.run (R := Passing ground file) s _ h.ahead
    descent := h.descent.report hentered hlead
      ⟨name, _, List.mem_cons_self, h.sources found (List.mem_of_find?_eq_some hfound), rfl⟩ }

theorem descends (fuel : Nat) : Descends ground fuel := by
  induction fuel with
  | zero =>
      intro file missing rest s id h hfuel
      have := h.length_le
      omega
  | succ fuel ih =>
      intro file missing rest s id h hfuel hlead
      rcases resolveNamed_cases fuel id s with
        ⟨-, hrun⟩ | ⟨found, hpending, hfound, ⟨hentered, hrun⟩ | ⟨hfree, hrun⟩⟩
      · rw [hrun]
        exact ⟨[], h⟩
      · rw [hrun]
        exact ⟨[], h.report hfound hentered hlead⟩
      · obtain ⟨entered, hentered⟩ : ∃ entered : State, entered =
          { s with resolving := id :: s.resolving, context := found.2.context } := ⟨_, rfl⟩
        have hdecls : entered.typeDecls = s.typeDecls := by rw [hentered]
        have hpath : entered.resolving = id :: s.resolving := by rw [hentered]
        have hopened : Resolving ground found.2.context.file missing (found.2.typeParts ++ rest) entered := by
          rw [hentered]
          exact (h.enter hpending hfound hfree hlead).inContext found.2.context
        obtain ⟨missing', hclosing⟩ := closing_lookInto ih hopened (hdecls ▸ hfound) (by rw [hpath]; rfl) (by
          rw [hdecls, hpath, List.length_cons]
          omega)
        obtain ⟨hfinal, -⟩ := concludes_lookInto fuel id found.2 entered
        have hlook : Runs Unmoved (lookInto fuel id found.2) := .lookInto fun _ => inferInstance
        have hback := hclosing.inContext s.context
        rw [h.ahead.context] at hback
        have hend := hback.leave ((hlook.run entered).resolving.trans hpath) hfinal
        rw [hentered] at hend
        rw [hrun]
        exact ⟨missing', hend⟩

-- All types are looked into, one after the other.
theorem exists_forM_resolveNamed {l : List (NamedId × PendingDecl)} {count : Nat}
    (h : Resolving ground file missing rest s) (hpath : s.resolving = [])
    (hcount : s.typeDecls.length ≤ count) : ∃ missing',
      Resolving ground file (missing' ++ missing) rest
      ((l.forM fun d => resolveNamed (count + 1) d.1).run s).2 := by
  induction l generalizing s missing with
  | nil => exact ⟨[], h⟩
  | cons d others ih =>
      have hunmoved : Unmoved s ((resolveNamed (count + 1) d.1).run s).2 := Runs.run s
      obtain ⟨missing', hfirst⟩ := descends (count + 1) file missing rest s d.1 h
        (Nat.lt_add_right _ (Nat.lt_succ_of_le hcount)) (hpath ▸ nofun)
      obtain ⟨missing'', hothers⟩ := ih hfirst (hunmoved.resolving.trans hpath) (hunmoved.typeDecls ▸ hcount)
      rw [← List.append_assoc] at hothers
      exact ⟨_, hothers⟩

theorem exists_resolveTypes (h : Resolving ground file missing rest s) (hpath : s.resolving = []) :
    ∃ missing', Resolving ground file (missing' ++ missing) rest (resolveTypes.run s).2 :=
  exists_forM_resolveNamed h hpath List.length_reverse.ge

instance : Runs Unmoved resolveTypes := .resolveTypes fun _ _ => inferInstance

-- When all types were looked into, recursion is reported just where a type leads back to itself.
-- Later notes may be taken for what names mean, as long as missing names are not noted.
theorem Resolving.reports_iff {i : Info} (h : Resolving ground file missing rest s) (hpath : s.resolving = [])
    (hknown : ∀ a, s.Declares a → ¬ s.model.Awaits a) (hkeeps : s.info.Keeps i)
    (hmissing : ∀ key ∈ keysOf missing, i.uses[key]? = none) :
    s.ReportsRecursion ↔ ∃ a, Relation.TransGen ({ s with info := i } : State).Leads a a := by
  have hdescent := h.descent
  rw [hpath] at hdescent
  refine hdescent.reported_iff (fun a b => ?_) (fun a before hclosed b => ?_) fun a b => ?_
  · rintro ⟨d, hd, hda, key, x, hkey, hx, hb⟩
    exact ⟨d, hd, hda, key, x, hkey, hkeeps.uses key x hx, hb⟩
  · rintro ⟨d, hd, hda, key, x, hkey, hx, hname, hdecl⟩
    have hx : i.uses[key]? = some x := hx
    rcases hclosed d hd hda key hkey with hnone | ⟨y, hy, hbefore⟩
    · rw [hmissing key hnone] at hx
      cases hx
    · obtain rfl := Option.some.inj (hx.symm.trans (hkeeps.uses key y hy))
      exact hbefore b hdecl hname
  · rintro ⟨d, hd, hda, -⟩
    exact ⟨⟨d, hd, hda⟩, hknown a ⟨d, hd, hda⟩⟩

end Descending

open Relation

section Parts

-- A type is declared with the name of another one.
def BuildsOn (types : List Part) (i : Info) (d e : Part) : Prop :=
  d ∈ types ∧ e ∈ types ∧ ∃ ident name x, d.2.type?.bind embeddedName? = some ident ∧
    e.2.name?.bind Tree.ident? = some name ∧ i.uses[(d.1, rangeOf ident)]? = some x ∧
    i.defs[(e.1, rangeOf name)]? = some x

section Named

variable {types : List Part} (hparts : s.typeDecls.reverse.map (·.2.part) = types)
variable (hapart : (s.typeDecls.map Prod.fst).Nodup)
variable (hnamed : ∀ d ∈ s.typeDecls, ∃ ident x, d.2.decl.name?.bind Tree.ident? = some ident ∧
  s.info.defs[(d.2.context.file, rangeOf ident)]? = some x ∧ ∀ y, s.model.NamesType y d.1 ↔ y = x)

include hparts hapart hnamed

-- Types lead to each other as their declarations do.
theorem leads_iff_buildsOn {d e : NamedId × PendingDecl} (hd : d ∈ s.typeDecls) (he : e ∈ s.typeDecls) :
    s.Leads d.1 e.1 ↔ BuildsOn types s.info d.2.part e.2.part := by
  have hmem {d : NamedId × PendingDecl} (hd : d ∈ s.typeDecls) : d.2.part ∈ types := by
    rw [← hparts]
    exact List.mem_map_of_mem (f := (·.2.part)) (List.mem_reverse.mpr hd)
  obtain ⟨name, x, hname, hdef, hnames⟩ := hnamed e he
  constructor
  · rintro ⟨d', hd', heq, key, y, hkey, huse, hy, -⟩
    obtain rfl := List.inj_on_of_nodup_map hapart hd' hd heq
    obtain ⟨ident, hident, rfl⟩ := Option.map_eq_some_iff.mp hkey
    obtain rfl := (hnames y).mp hy
    exact ⟨hmem hd, hmem he, ident, name, y, hident, hname, huse, hdef⟩
  · rintro ⟨-, -, ident, name', y, hident, hname', huse, hdef'⟩
    obtain rfl := Option.some.inj (hname'.symm.trans hname)
    obtain rfl := Option.some.inj (hdef'.symm.trans hdef)
    exact ⟨d, hd, rfl, _, y, Option.map_eq_some_iff.mpr ⟨ident, hident, rfl⟩, huse, (hnames y).mpr rfl,
      e, he, rfl⟩

theorem leads_cycle_iff : (∃ a, TransGen s.Leads a a) ↔ ∃ d, TransGen (BuildsOn types s.info) d d := by
  have hstep {d e : NamedId × PendingDecl} (hd : d ∈ s.typeDecls) (he : e ∈ s.typeDecls) :=
    leads_iff_buildsOn hparts hapart hnamed hd he
  constructor
  · rintro ⟨a, ha⟩
    obtain ⟨_, ⟨d, -⟩, -⟩ := TransGen.head'_iff.mp ha
    have : Nonempty (NamedId × PendingDecl) := ⟨d⟩
    have hfind : ∀ a, s.Declares a → ∃ d ∈ s.typeDecls, d.1 = a := fun _ h => h
    choose! f hf hfst using hfind
    refine ⟨(f a).2.part, ha.lift (fun a => (f a).2.part) fun a b hlead => ?_⟩
    have hfrom : s.Declares a := hlead.elim fun d hd => ⟨d, hd.1, hd.2.1⟩
    have hto : s.Declares b := by
      obtain ⟨-, -, -, -, -, -, -, -, hb⟩ := hlead
      exact hb
    refine (hstep (hf a hfrom) (hf b hto)).mp ?_
    rwa [hfst a hfrom, hfst b hto]
  · rintro ⟨p, hp⟩
    have hfind : ∀ p ∈ types, ∃ d ∈ s.typeDecls, d.2.part = p := fun p hp => by
      rw [← hparts, List.map_reverse, List.mem_reverse] at hp
      exact List.mem_map.mp hp
    obtain ⟨_, ⟨hmem, -⟩, -⟩ := TransGen.head'_iff.mp hp
    obtain ⟨d, -⟩ := hfind p hmem
    have : Nonempty (NamedId × PendingDecl) := ⟨d⟩
    choose! g hg hpart using hfind
    refine ⟨(g p).1, hp.lift (fun p => (g p).1) fun p q hbuilds => ?_⟩
    refine (hstep (hg p hbuilds.1) (hg q hbuilds.2.1)).mpr ?_
    rwa [hpart p hbuilds.1, hpart q hbuilds.2.1]

end Named

end Parts

section Whole

variable {types : List Part}

-- Nothing was looked into yet.
theorem OpensTypes.resolving_start (h : OpensTypes types s) (hsources : ∀ p ∈ types, p.1.isBundled = false)
    (hs : Ahead ground file rest s) : Resolving ground file [] rest s where
  ahead := hs
  apart := h.apart
  sources d hd := by
    refine hsources d.2.part ?_
    rw [← h.parts]
    exact List.mem_map_of_mem (f := (·.2.part)) (List.mem_reverse.mpr hd)
  nodup := h.resolving ▸ List.nodup_nil
  declared := h.resolving ▸ nofun
  descent := by
    rw [h.resolving]
    refine .start ?_ ?_
    · rintro ⟨name, hname⟩
      exact h.silent _ ⟨name, rfl⟩ hname
    · rintro a ⟨⟨d, hd, rfl⟩, hknown⟩
      exact hknown (h.awaited d hd)

-- Recursion is reported just where the declarations of types lead back to themselves. What else is
-- checked later on does not matter.
theorem OpensTypes.reportsRecursion_iff {later : CheckM Unit}
    [hsilent : Runs (Unreported Problem.IsRecursion) later] (h : OpensTypes types s)
    (hsources : ∀ p ∈ types, p.1.isBundled = false) (hs : Ahead ground file rest s)
    (hlater : ∀ ground, Visits ground file rest later) {s' : State}
    (hs' : (later.run (resolveTypes.run s).2).2 = s') :
    s'.ReportsRecursion ↔ ∃ d, TransGen (BuildsOn types s'.info) d d := by
  obtain ⟨found, hfound⟩ : ∃ found, found = (resolveTypes.run s).2 := ⟨_, rfl⟩
  rw [← hfound] at hs'
  have hunmoved : Unmoved s found := hfound ▸ Runs.run s
  have hnone : found.resolving = [] := hunmoved.resolving.trans h.resolving
  obtain ⟨missing, hresolving⟩ : ∃ missing, Resolving ground file (missing ++ []) rest found :=
    hfound ▸ exists_resolveTypes (h.resolving_start hsources hs) h.resolving
  rw [List.append_nil] at hresolving
  have hahead : Ahead ground file (rest ++ missing) found := hresolving.ahead.perm List.perm_append_comm
  have hend : Ahead ground file missing s' := hs' ▸ hlater ground missing found hahead
  have hkeeps : found.info.Keeps s'.info := hs' ▸ keeps_of_visits hlater hahead
  have hkept : s.info.Keeps found.info :=
    hfound ▸ keeps_of_ahead (fun _ => (Runs.run s : Passing _ file s (resolveTypes.run s).2) _) hs
  have hknown (a : NamedId) (ha : found.Declares a) : ¬ found.model.Awaits a :=
    hfound ▸ not_awaits_resolveTypes ((State.declares_congr hunmoved.typeDecls).mp ha)
  have hparts : found.typeDecls.reverse.map (·.2.part) = types := by rw [hunmoved.typeDecls, h.parts]
  rw [(hs' ▸ hsilent.run found : Unreported Problem.IsRecursion found s').reportsRecursion,
    hresolving.reports_iff hnone hknown hkeeps fun _ hkey => hend.uses_eq_none hkey]
  refine leads_cycle_iff (s := { found with info := s'.info }) hparts hresolving.apart fun d hd => ?_
  have hd : d ∈ found.typeDecls := hd
  rw [hunmoved.typeDecls] at hd
  obtain ⟨ident, x, hident, hdef, hnames⟩ := h.named d hd
  refine ⟨ident, x, hident, hkeeps.defs _ x (hkept.defs _ x hdef), fun y => ?_⟩
  rw [← hnames]
  exact hunmoved.names y d.1 (h.awaited d hd).1

end Whole

end SpriteScript.Check
