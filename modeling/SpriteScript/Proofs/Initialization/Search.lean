import SpriteScript.Proofs.Checking.Progress
import SpriteScript.Proofs.Descent
import SpriteScript.Proofs.Identifiers.PuttingOff
import SpriteScript.Proofs.Initialization.Values

-- Finding the values of specifications is a descent through the names in them. A specification that
-- needs itself is come back to.
namespace SpriteScript.Check

-- The name at the place stands in an initial value of the specification.
def Part.Mentions (p : Part) (key : FileId × Text.ByteRange) : Prop :=
  ∃ value ∈ p.2.listed 0, ∃ ident, value.Mentions ident ∧ (p.1, rangeOf ident) = key

-- The specifications of a program, and the one that each symbol belongs to.
structure Outlook where
  parts : List Part
  specOf : Std.HashMap SymbolId Nat
  linked : ∀ (x : SymbolId) (i : Nat), specOf[x]? = some i → i < parts.length
  plain : ∀ p ∈ parts, ∀ value ∈ p.2.listed 0, value.Plain
  own : ∀ p ∈ parts, p.1.isBundled = false

namespace Outlook

def Mentions (w : Outlook) (a : Nat) (key : FileId × Text.ByteRange) : Prop :=
  ∃ p, w.parts[a]? = some p ∧ p.Mentions key

-- A name in the first specification means a symbol of the second one, as far as this was found out.
def Needs (w : Outlook) (i : Info) (a b : Nat) : Prop :=
  ∃ key x, w.Mentions a key ∧ i.uses[key]? = some x ∧ w.specOf[x]? = some b

-- What the specification needs is one of the others, unless it is not known what a name means.
def Serves (w : Outlook) (i : Info) (missing : List Part) (a : Nat) (before : List Nat) : Prop :=
  ∀ key, w.Mentions a key → key ∈ keysOf missing ∨ ∃ x, i.uses[key]? = some x ∧ ∀ b,
    w.specOf[x]? = some b → b ∈ before

end Outlook

-- A specification needs itself, and this was reported.
def State.ReportsInitCycle (s : State) : Prop := ∃ name, s.Reports (.initCycle name)

-- Specifications are left as they are, and no cycle is reported.
structure Calm (s s' : State) : Prop where
  specs : s'.specs = s.specs
  specOf : s'.specOf = s.specOf
  problems : s.problems <:+ s'.problems
  unreported : Unreported Problem.IsInitCycle s s'

-- A check that is looking into specifications. Names for which nothing was found are missing.
structure Initializing (w : Outlook) (ground : Ground) (file : FileId) (missing rest : List Part)
    (path : List Nat) (s : State) : Prop where
  ahead : Ahead ground file (missing ++ rest) s
  parts : s.specParts = w.parts
  specOf : s.specOf = w.specOf
  running : ∀ a, s.IsAt .running a ↔ a ∈ path
  nodup : path.Nodup
  descent : Descent (w.Needs s.info) (w.Serves s.info missing) s.ReportsInitCycle path (s.IsAt .finished)

variable {w : Outlook} {ground ground' : Ground} {file other : FileId}
variable {missing missing' rest rest' : List Part}
variable {path : List Nat} {s s' : State} {p : PendingSpec} {index a : Nat}
variable {progress progress' : Progress} {i : Info}
variable {key : FileId × Text.ByteRange} {facts : List Fact}

section Moves

theorem Unreported.reportsInitCycle (h : Unreported Problem.IsInitCycle s s') :
    s'.ReportsInitCycle ↔ s.ReportsInitCycle :=
  exists_congr fun name => h _ ⟨name, rfl⟩

theorem Calm.progressing (h : Calm s s') : Progressing s s' :=
  progressing_of_specs h.specs h.specOf h.problems

theorem calm_of_eq (hspecs : s'.specs = s.specs) (hspecOf : s'.specOf = s.specOf)
    (hproblems : s'.problems = s.problems) : Calm s s' :=
  ⟨hspecs, hspecOf, hproblems ▸ List.suffix_rfl, unreported_of_problems hproblems⟩

instance : IsPreorder State Calm where
  refl _ := calm_of_eq rfl rfl rfl
  trans _ _ _ h h' := ⟨h'.specs.trans h.specs, h'.specOf.trans h.specOf, h.problems.trans h'.problems,
    trans_of (Unreported Problem.IsInitCycle) h.unreported h'.unreported⟩

instance : Routine Calm where
  context _ _ := calm_of_eq rfl rfl rfl
  info _ _ := calm_of_eq rfl rfl rfl
  problem _ _ _ _ hp := ⟨rfl, rfl, List.suffix_cons _ _, unreported_of_not_isCycle hp⟩
  symbol _ _ _ := calm_of_eq rfl rfl rfl
  composite x body _ hbody _ := by
    refine ⟨fun s => ?_⟩
    have hadded : Calm s ((addNamed x).run s).2 := calm_of_eq rfl rfl rfl
    have hfilled :
        Calm ((body ⟨s.model.named.size⟩).run ((addNamed x).run s).2).2 ((addComposite x body).run s).2 :=
      calm_of_eq rfl rfl rfl
    exact trans_of Calm hadded (trans_of Calm ((hbody ⟨s.model.named.size⟩).run _) hfilled)
  crashed _ := calm_of_eq rfl rfl rfl
  addScope _ _ := calm_of_eq rfl rfl rfl
  declare _ _ _ _ := calm_of_eq rfl rfl rfl

theorem specParts_setProgress (s : State) (index : Nat) (progress : Progress) :
    ((setProgress index progress).run s).2.specParts = s.specParts := by
  refine List.ext_getElem? fun a => ?_
  rw [getElem?_specParts, getElem?_specParts, getElem?_setProgress]
  split
  · rw [Option.map_map]
    rfl
  · rfl

-- What is found out later is found out as well.
theorem Outlook.Needs.mono {b : Nat} (h : w.Needs s.info a b) (hkeeps : s.info.Keeps i) : w.Needs i a b :=
  h.imp fun key hkey => hkey.imp fun x hx => ⟨hx.1, hkeeps.uses key x hx.2.1, hx.2.2⟩

theorem Outlook.Serves.mono {before : List Nat} (h : w.Serves s.info missing a before)
    (hkeeps : s.info.Keeps i) (missing' : List Part) :
    w.Serves i (missing' ++ missing) a before := by
  intro key hkey
  rcases h key hkey with hmissing | ⟨x, hx, hbefore⟩
  · rw [keysOf_append]
    exact .inl (List.mem_append_right _ hmissing)
  · exact .inr ⟨x, hkeeps.uses key x hx, hbefore⟩

namespace Initializing

-- Whatever else is found out, the descent goes on.
theorem next (missing' : List Part) (h : Initializing w ground file missing rest path s)
    (hcalm : Calm s s') (hkeeps : s.info.Keeps s'.info)
    (hahead : Ahead ground' other (missing' ++ missing ++ rest') s') :
    Initializing w ground' other (missing' ++ missing) rest' path s' where
  ahead := hahead
  parts := hcalm.progressing.specParts.trans h.parts
  specOf := hcalm.specOf.trans h.specOf
  running := State.isAt_congr hcalm.specs ▸ h.running
  nodup := h.nodup
  descent := h.descent.mono (fun _ _ hneeds => hneeds.mono hkeeps)
    (fun _ _ _ hserves => hserves.mono hkeeps missing')
    hcalm.unreported.reportsInitCycle fun _ => by rw [State.isAt_congr hcalm.specs]

theorem forget (h : Initializing w (ground.learn facts) file missing rest path s) :
    Initializing w ground file missing rest path s :=
  { h with ahead := h.ahead.forget }

theorem learn (h : Initializing w ground file missing rest path s) (hfacts : ∀ fact ∈ facts, fact.Holds s) :
    Initializing w (ground.learn facts) file missing rest path s :=
  { h with ahead := h.ahead.learn hfacts }

theorem inContext (h : Initializing w ground file missing rest path s) (c : Context) :
    Initializing w ground c.file missing rest path { s with context := c } :=
  { h with
    ahead := h.ahead.next rfl (List.Subperm.refl _) rfl h.ahead.known
      (h.ahead.valued.of_model rfl List.prefix_rfl rfl) }

-- Names of what is ahead may turn out to be missing.
theorem miss {parts : List Part} (h : Initializing w ground file missing (parts ++ rest) path s) :
    Initializing w ground file (parts ++ missing) rest path s := by
  refine h.next parts (refl_of Calm s) (.refl _) (h.ahead.perm ?_)
  rw [List.append_assoc]
  exact List.perm_append_comm_assoc _ _ _

-- A specification that was not touched is entered.
theorem enter (h : Initializing w ground file missing rest path s) (hp : s.specs[index]? = some p)
    (huntouched : p.progress = .untouched) (hlead : ∀ b ∈ path.head?, w.Needs s.info b index) :
    Initializing w (ground.learn [.started index { p with progress := .running }]) file missing
      (p.parts ++ rest) (index :: path) ((setProgress index .running).run s).2 := by
  have hlt : index < s.specs.size := (Array.getElem?_eq_some_iff.mp hp).1
  have hat (progress : Progress) (hat : s.IsAt progress index) : progress = .untouched := by
    obtain ⟨q, hq, rfl⟩ := hat
    obtain rfl := Option.some.inj (hp.symm.trans hq)
    exact huntouched
  have hfresh : ¬ s.IsAt .finished index := fun hfinished => nomatch hat _ hfinished
  have hidle : ¬ s.IsAt .running index := fun hrunning => nomatch hat _ hrunning
  exact {
    ahead := (h.ahead.start hp huntouched).perm (List.perm_append_comm_assoc _ _ _)
    parts := (specParts_setProgress ..).trans h.parts
    specOf := h.specOf
    running := fun a => by
      rw [isAt_setProgress, List.mem_cons]
      split
      case isTrue ha => exact iff_of_true ⟨ha ▸ hlt, rfl⟩ (.inl ha)
      case isFalse ha => rw [h.running, or_iff_right ha]
    nodup := List.nodup_cons.mpr ⟨mt (h.running index).mpr hidle, h.nodup⟩
    descent := by
      refine (h.descent.enter hfresh hlead).mono (fun _ _ => id) (fun _ _ _ => id) .rfl fun a => ?_
      rw [isAt_setProgress]
      split
      case isTrue ha => exact iff_of_false (fun hfalse => nomatch hfalse.2) (ha ▸ hfresh)
      case isFalse => rfl }

-- It is left when its symbols have their types and values.
theorem leave (h : Initializing w (ground.learn [.started index p]) file missing rest (index :: path) s)
    (hfirst : ∀ q, Fact.started index q ∉ ground.facts) (hsettling : Settling p.symbols s s')
    (hserves : ¬ s.ReportsInitCycle → ∀ l, (∀ b, b ∈ l ↔ s.IsAt .finished b) →
      w.Serves s.info missing index l) :
    Initializing w ground file missing rest path ((setProgress index .finished).run s').2 := by
  have hahead := h.ahead.finish hfirst hsettling
  obtain ⟨m, rfl⟩ : ∃ m, s' = { s with model := m } := ⟨_, hsettling.state⟩
  obtain ⟨hfree, hnodup⟩ := List.nodup_cons.mp h.nodup
  have hlt : index < s.specs.size := by
    obtain ⟨q, hq, -⟩ := (h.running index).mpr List.mem_cons_self
    exact (Array.getElem?_eq_some_iff.mp hq).1
  have hat (progress : Progress) (a : Nat) :
      ((setProgress index .finished).run { s with model := m }).2.IsAt progress a ↔
      if a = index then a < s.specs.size ∧ .finished = progress else s.IsAt progress a := isAt_setProgress
  exact {
    ahead := hahead
    parts := (specParts_setProgress ..).trans h.parts
    specOf := h.specOf
    running := fun a => by
      rw [hat]
      split
      case isTrue ha => exact iff_of_false (fun hfalse => nomatch hfalse.2) (ha ▸ hfree)
      case isFalse ha => rw [h.running, List.mem_cons, or_iff_right ha]
    nodup := hnodup
    descent := by
      refine h.descent.leave hfree hserves fun a => ?_
      rw [hat]
      split
      case isTrue ha => exact iff_of_true ⟨ha ▸ hlt, rfl⟩ (.inl ha)
      case isFalse ha => rw [or_iff_right ha] }

-- A specification that needs itself is reported.
theorem report (h : Initializing w ground file missing rest path s) (hp : s.specs[index]? = some p)
    (hrunning : p.progress = .running) (hlead : ∀ b ∈ path.head?, w.Needs s.info b index) :
    ((reportCycle p).run s).2.ReportsInitCycle ∧
      Initializing w ground file missing rest path ((reportCycle p).run s).2 := by
  have hpart : p.part ∈ w.parts := by
    rw [← h.parts]
    exact List.mem_map_of_mem (Array.mem_toList_iff.mpr (Array.mem_of_getElem? hp))
  have hreports : ((reportCycle p).run s).2.ReportsInitCycle := ⟨_, _, List.mem_cons_self, w.own _ hpart, rfl⟩
  have hpassing : Runs (Passing ground file) (reportCycle p) := by
    unfold reportCycle
    infer_instance
  exact ⟨hreports, {
    ahead := hpassing.run s _ h.ahead
    parts := h.parts
    specOf := h.specOf
    running := h.running
    nodup := h.nodup
    descent := h.descent.report ((h.running index).mp ⟨p, hp, hrunning⟩) hlead hreports }⟩

-- When everything was looked into, a cycle is reported just where a specification needs itself.
-- Later notes may be taken for what names mean, as long as missing names are not noted.
theorem reports_iff (h : Initializing w ground file missing rest [] s)
    (hfinished : ∀ a < w.parts.length, s.IsAt .finished a) (hkeeps : s.info.Keeps i)
    (hmissing : ∀ key ∈ keysOf missing, i.uses[key]? = none) :
    s.ReportsInitCycle ↔ ∃ a, Relation.TransGen (w.Needs i) a a := by
  refine h.descent.reported_iff (fun _ _ hneeds => hneeds.mono hkeeps)
    (fun a before hserves b => ?_) fun a b => ?_
  · rintro ⟨key, x, hkey, hx, hb⟩
    rcases hserves key hkey with hnone | ⟨y, hy, hbefore⟩
    · rw [hmissing key hnone] at hx
      cases hx
    · obtain rfl := Option.some.inj (hx.symm.trans (hkeeps.uses key y hy))
      exact hbefore b hb
  · rintro ⟨key, -, ⟨p, hp, -⟩, -⟩
    exact hfinished a (List.getElem?_eq_some_iff.mp hp).1

end Initializing

end Moves

end SpriteScript.Check
