import Mathlib.Data.List.Nodup
import SpriteScript.Session

-- However a session came to be as it is: the program that it keeps is the one that its
-- configuration, its assets and its texts make up, and asking gives no other.
namespace SpriteScript

namespace Program

variable {α β : Type} {a b : Except AnalysisError α} {f g : α → Except AnalysisError β}

-- The action does what the other one does, unless it is given up.
def OrCancelled (a b : Except AnalysisError α) : Prop := a = b ∨ a = .error .cancelled

theorem OrCancelled.bind (ha : OrCancelled a b) (hf : ∀ x, OrCancelled (f x) (g x)) :
    OrCancelled (a >>= f) (b >>= g) := by
  rcases ha with rfl | rfl
  · cases a with
    | error e => exact .inl rfl
    | ok x => exact hf x
  · exact .inr rfl

theorem orCancelled_poll (cancelled : Phase → Bool) (phase : Phase) :
    OrCancelled (poll cancelled phase) (poll (fun _ => false) phase) := by
  unfold poll
  split
  · exact .inr rfl
  · exact .inl rfl

-- Being given up is all that can happen to a compilation on the way.
theorem orCancelled_compileUnless (config : Config) (assets : AssetReader) (files : List (String × String))
    (cancelled : Phase → Bool) :
    OrCancelled (compileUnless config assets files cancelled) (compile config assets files false) := by
  unfold compile compileUnless
  extract_lets parsed sources checked rest rest'
  clear_value checked
  have hrest (u : Unit) : OrCancelled (rest u) (rest' u) :=
    .bind (.inl rfl) fun report => .bind (orCancelled_poll cancelled _) fun _ =>
      .bind (orCancelled_poll cancelled _) fun _ => .inl rfl
  refine .bind (orCancelled_poll cancelled _) fun _ => ?_
  split
  · exact .bind (.inl rfl) hrest
  · exact hrest ()

end Program

-- What a program is made from.
structure Inputs where
  config : Config := {}
  assets : AssetReader := .ofFiles []
  -- texts by path
  files : List (String × String) := []

inductive Session.Op where
  | setFile (path text : String)
  | removeFile (path : String)
  | setAssets (assets : AssetReader)
  | setConfig (config : Config)
  | markDirty
  | ask (cancelled : Program.Phase → Bool)

namespace Inputs

def compile (i : Inputs) : Except AnalysisError Program := Program.compile i.config i.assets i.files false

-- A path that is there keeps its place, and a new one comes last.
def setFile (i : Inputs) (path text : String) : Inputs :=
  if path ∈ i.files.map Prod.fst then
    { i with files := i.files.map fun f => if f.1 = path then (path, text) else f }
  else { i with files := i.files ++ [(path, text)] }

def apply (i : Inputs) : Session.Op → Inputs
  | .setFile path text => i.setFile path text
  | .removeFile path => { i with files := i.files.filter (·.1 != path) }
  | .setAssets assets => { i with assets }
  | .setConfig config => { i with config }
  | .markDirty | .ask _ => i

end Inputs

namespace Session

def inputs (s : Session) : Inputs := ⟨s.config, s.assets, s.files⟩

def apply (s : Session) : Op → Session
  | .setFile path text => s.setFile path text
  | .removeFile path => s.removeFile path
  | .setAssets assets => s.setAssets assets
  | .setConfig config => s.setConfig config
  | .markDirty => s.markDirty
  | .ask cancelled => (s.ask cancelled).2

variable {s : Session} {files : List (String × String)} {path text : String}

-- Every path stands for one text, and a program that is kept is the one that would be compiled.
structure Coherent (s : Session) : Prop where
  nodup : (s.files.map Prod.fst).Nodup
  program : ∀ p, s.program = some p → s.inputs.compile = .ok p

section Files

theorem put_eq_map (hnodup : (files.map Prod.fst).Nodup) (hmem : path ∈ files.map Prod.fst) :
    put path text files = files.map fun f => if f.1 = path then (path, text) else f := by
  induction files with
  | nil => cases hmem
  | cons f rest ih =>
      obtain ⟨p, old⟩ := f
      obtain ⟨hnew, hrest⟩ := List.nodup_cons.mp hnodup
      by_cases hp : p = path
      · subst hp
        have hother (f : String × String) (hf : f ∈ rest) : f.1 ≠ p :=
          fun heq => hnew (List.mem_map.mpr ⟨f, hf, heq⟩)
        have hsame : (rest.map fun f => if f.1 = p then (p, text) else f) = rest :=
          (List.map_congr_left fun f hf => if_neg (hother f hf)).trans (List.map_id rest)
        simp [put, hsame]
      · have hmem := (List.mem_cons.mp hmem).resolve_left (Ne.symm hp)
        simp [put, hp, ih hrest hmem]

theorem put_eq_append (hmem : path ∉ files.map Prod.fst) : put path text files = files ++ [(path, text)] := by
  induction files with
  | nil => rfl
  | cons f rest ih =>
      obtain ⟨hp, hrest⟩ := List.ne_and_not_mem_of_not_mem_cons hmem
      simp [put, Ne.symm hp, ih hrest]

-- The paths stay what they are, or one comes behind them.
theorem map_fst_put : (put path text files).map Prod.fst =
    if path ∈ files.map Prod.fst then files.map Prod.fst else files.map Prod.fst ++ [path] := by
  induction files with
  | nil => simp [put]
  | cons f rest ih =>
      obtain ⟨p, old⟩ := f
      by_cases hp : p = path
      · simp [put, hp]
      · by_cases hmem : path ∈ rest.map Prod.fst <;> simp_all [put, Ne.symm hp]

theorem nodup_put (hnodup : (files.map Prod.fst).Nodup) : ((put path text files).map Prod.fst).Nodup := by
  rw [map_fst_put]
  split
  case isTrue => exact hnodup
  case isFalse hnew => exact List.nodup_append'.mpr ⟨hnodup, List.nodup_singleton _, by simpa using hnew⟩

-- A text that is there already is the only one of its path.
theorem eq_of_content? (hnodup : (s.files.map Prod.fst).Nodup) (hcontent : s.content? path = some text) :
    path ∈ s.files.map Prod.fst ∧ ∀ f ∈ s.files, f.1 = path → f = (path, text) := by
  obtain ⟨found, hfound, htext⟩ := Option.map_eq_some_iff.mp hcontent
  have hmem := List.mem_of_find?_eq_some hfound
  have hpath : found.1 = path := beq_iff_eq.mp (List.find?_some hfound :)
  refine ⟨List.mem_map.mpr ⟨found, hmem, hpath⟩, fun f hf hf' => ?_⟩
  rw [List.inj_on_of_nodup_map hnodup hf hmem (hf'.trans hpath.symm), ← hpath, ← htext]

theorem hasFile_eq_false (h : s.hasFile path = false) : ∀ f ∈ s.files, f.1 ≠ path := by
  intro f hf heq
  have hfind : s.files.find? (·.1 == path) = none := by
    simpa [hasFile, content?] using h
  exact absurd (beq_iff_eq.mpr heq) (List.find?_eq_none.mp hfind f hf)

end Files

section Steps

theorem inputs_setFile (hnodup : (s.files.map Prod.fst).Nodup) :
    (s.setFile path text).inputs = s.inputs.setFile path text := by
  unfold setFile
  split
  case isTrue hsame =>
    obtain ⟨hmem, hother⟩ := eq_of_content? hnodup (beq_iff_eq.mp hsame)
    have hfiles : (s.files.map fun f => if f.1 = path then (path, text) else f) = s.files := by
      refine (List.map_congr_left fun f hf => ?_).trans (List.map_id _)
      split
      case isTrue heq => exact (hother f hf heq).symm
      case isFalse => rfl
    simp only [Inputs.setFile, inputs, hmem, if_true, hfiles]
  case isFalse =>
    by_cases hmem : path ∈ s.files.map Prod.fst
    · simp only [Inputs.setFile, inputs, markDirty, hmem, if_true, put_eq_map hnodup hmem]
    · simp only [Inputs.setFile, inputs, markDirty, hmem, if_false, put_eq_append hmem]

theorem inputs_removeFile : (s.removeFile path).inputs = s.inputs.apply (.removeFile path) := by
  unfold removeFile
  split
  case isTrue => rfl
  case isFalse hmissing =>
    have hfiles : s.files.filter (·.1 != path) = s.files :=
      List.filter_eq_self.mpr fun f hf =>
        bne_iff_ne.mpr (hasFile_eq_false (Bool.eq_false_iff.mpr hmissing) f hf)
    rw [Inputs.apply, inputs, hfiles]

theorem ask_of_some {p : Program} (h : s.program = some p) (cancelled : Program.Phase → Bool) :
    s.ask cancelled = (.ok p, s) := by
  unfold ask
  rw [h]

theorem ask_of_none (h : s.program = none) (cancelled : Program.Phase → Bool) :
    (s.ask cancelled).1 = Program.compileUnless s.config s.assets s.files cancelled := by
  unfold ask
  rw [h]
  dsimp only
  cases Program.compileUnless s.config s.assets s.files cancelled <;> rfl

-- The answer is kept if it is a program, and otherwise nothing changes.
theorem ask_cases (s : Session) (cancelled : Program.Phase → Bool) :
    (∃ p count, s.ask cancelled = (.ok p, { s with program := some p, compiled := count })) ∨
      ∃ e, s.ask cancelled = (.error e, s) := by
  unfold ask
  split
  case h_1 p hp => exact .inl ⟨p, s.compiled, by rw [← hp]⟩
  case h_2 =>
    split
    case h_1 p _ => exact .inl ⟨p, s.compiled + 1, rfl⟩
    case h_2 e _ => exact .inr ⟨e, rfl⟩

theorem inputs_ask (s : Session) (cancelled : Program.Phase → Bool) :
    (s.ask cancelled).2.inputs = s.inputs := by
  rcases s.ask_cases cancelled with ⟨p, count, hask⟩ | ⟨e, hask⟩
  · rw [hask]
    rfl
  · rw [hask]

theorem ask_of_error {cancelled : Program.Phase → Bool} {e : AnalysisError}
    (h : (s.ask cancelled).1 = .error e) : (s.ask cancelled).2 = s := by
  rcases s.ask_cases cancelled with ⟨p, count, hask⟩ | ⟨e, hask⟩
  · rw [hask] at h
    cases h
  · rw [hask]

theorem ask_of_ok {cancelled : Program.Phase → Bool} {p : Program} (h : (s.ask cancelled).1 = .ok p) :
    (s.ask cancelled).2.program = some p := by
  rcases s.ask_cases cancelled with ⟨p', count, hask⟩ | ⟨e, hask⟩
  · rw [hask] at h ⊢
    cases h
    rfl
  · rw [hask] at h
    cases h

-- A program is given as it would be compiled, or the compilation is given up.
theorem Coherent.ask (h : s.Coherent) (cancelled : Program.Phase → Bool) :
    (s.ask cancelled).1 = s.inputs.compile ∨ s.program = none ∧ (s.ask cancelled).1 = .error .cancelled := by
  cases hprogram : s.program with
  | some p =>
      rw [ask_of_some hprogram]
      exact .inl (h.program p hprogram).symm
  | none =>
      rw [ask_of_none hprogram]
      rcases Program.orCancelled_compileUnless s.config s.assets s.files cancelled with hsame | hcancelled
      · exact .inl hsame
      · exact .inr ⟨rfl, hcancelled⟩

theorem Coherent.markDirty (h : (s.files.map Prod.fst).Nodup) : s.markDirty.Coherent :=
  ⟨h, fun _ hp => by cases hp⟩

-- Whatever is done to a session is done to its inputs, and it keeps no program of other ones.
theorem Coherent.apply (h : s.Coherent) (op : Op) :
    (s.apply op).Coherent ∧ (s.apply op).inputs = s.inputs.apply op := by
  cases op with
  | setFile path text =>
      refine ⟨?_, inputs_setFile h.nodup⟩
      change (s.setFile path text).Coherent
      unfold setFile
      split
      · exact h
      · exact .markDirty (nodup_put h.nodup)
  | removeFile path =>
      refine ⟨?_, inputs_removeFile⟩
      change (s.removeFile path).Coherent
      unfold removeFile
      split
      · exact .markDirty (h.nodup.sublist (List.filter_sublist.map _))
      · exact h
  | setAssets assets => exact ⟨.markDirty h.nodup, rfl⟩
  | setConfig config => exact ⟨.markDirty h.nodup, rfl⟩
  | markDirty => exact ⟨.markDirty h.nodup, rfl⟩
  | ask cancelled =>
      refine ⟨?_, inputs_ask s cancelled⟩
      change (s.ask cancelled).2.Coherent
      have hanswer := h.ask cancelled
      rcases s.ask_cases cancelled with ⟨p, count, hask⟩ | ⟨e, hask⟩
      · rw [hask] at hanswer ⊢
        refine ⟨h.nodup, fun p' hp' => ?_⟩
        cases hp'
        rcases hanswer with hok | ⟨-, hcancelled⟩
        · exact hok.symm
        · cases hcancelled
      · rw [hask]
        exact h

theorem Coherent.foldl (h : s.Coherent) (ops : List Op) :
    (ops.foldl Session.apply s).Coherent ∧ (ops.foldl Session.apply s).inputs =
    ops.foldl Inputs.apply s.inputs := by
  induction ops generalizing s with
  | nil => exact ⟨h, rfl⟩
  | cons op ops ih =>
      obtain ⟨hnext, hinputs⟩ := h.apply op
      rw [List.foldl_cons, List.foldl_cons, ← hinputs]
      exact ih hnext

end Steps

-- After any run a session has the inputs that it was given, and a program that it keeps is the
-- one that they compile to. Asking gives that program and keeps it, unless it is given up in
-- compiling; then the session stays as it was.
theorem answers_current (docs : Editor.Docs) (ops : List Op) :
    let s := ops.foldl apply { docs }
    let given := ops.foldl Inputs.apply {}
    s.inputs = given ∧ (∀ p, s.program = some p → given.compile = .ok p) ∧
      (s.ask fun _ => false).1 = given.compile ∧
      ∀ cancelled, (s.ask cancelled).2.inputs = given ∧
        ((s.ask cancelled).1 = given.compile ∨ s.program = none ∧ (s.ask cancelled).1 = .error .cancelled) ∧
        (∀ p, (s.ask cancelled).1 = .ok p → (s.ask cancelled).2.program = some p) ∧
        ∀ e, (s.ask cancelled).1 = .error e → (s.ask cancelled).2 = s := by
  intro s given
  have hstart : Coherent { docs } := ⟨List.nodup_nil, fun _ hp => by cases hp⟩
  obtain ⟨hs, hinputs⟩ : s.Coherent ∧ s.inputs = given := hstart.foldl ops
  rw [← hinputs]
  have hfree : (s.ask fun _ => false).1 = s.inputs.compile := by
    cases hprogram : s.program with
    | some p =>
        rw [ask_of_some hprogram]
        exact (hs.program p hprogram).symm
    | none => exact ask_of_none hprogram _
  refine ⟨rfl, hs.program, hfree, fun cancelled => ?_⟩
  exact ⟨inputs_ask s cancelled, hs.ask cancelled, fun _ => ask_of_ok, fun _ => ask_of_error⟩

end Session

end SpriteScript
