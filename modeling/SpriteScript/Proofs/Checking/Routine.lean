import SpriteScript.Check.Statements
import SpriteScript.Proofs.Checking.Moves

-- Most of a check is routine: it looks things up, records what it finds and reports what is wrong. A relation
-- between states that every such move keeps to is kept to by all functions that are made of them.
namespace SpriteScript

-- Problems that are found where a declaration leads back to itself, and nowhere else.
@[reducible] def Problem.isCycle : Problem → Bool
  | recursiveType _ | initCycle _ => true
  | _ => false

instance {c : Prop} [Decidable c] (p q : Problem) [hp : Refuted p.isCycle] [hq : Refuted q.isCycle] :
    Refuted (if c then p else q).isCycle where
  eq_false := by
    split
    · exact hp.eq_false
    · exact hq.eq_false

@[reducible] def SymbolKind.isTypeName : SymbolKind → Bool
  | typeName => true
  | _ => false

instance {c : Prop} [Decidable c] (k k' : SymbolKind) [hk : Refuted k.isTypeName]
    [hk' : Refuted k'.isTypeName] : Refuted (if c then k else k').isTypeName where
  eq_false := by
    split
    · exact hk.eq_false
    · exact hk'.eq_false

-- The symbol is there, and it names no type.
def Model.NamesValue (m : Model) (x : SymbolId) : Prop :=
  x.index < m.symbols.size ∧ (m.symbol x).kind.isTypeName = false

-- A struct or an interface.
def Underlying.isComposite : Underlying → Bool
  | struct _ | interface _ => true
  | pending | type _ => false

namespace Check

-- The instances for the parts of a long function are found in one search.
set_option synthInstance.maxSize 1000

-- A type without a name of its own, which is filled in when its parts are known.
def addComposite (x : NamedType) (body : NamedId → CheckM Underlying) : CheckM NamedId := do
  let id ← addNamed x
  let underlying ← body id
  modifyModel (·.modifyNamed id fun n => { n with underlying })
  return id

-- What the functions for type expressions do to a state.
class TypeRoutine (R : State → State → Prop) : Prop extends IsPreorder State R where
  context : ∀ s c, R s { s with context := c }
  info : ∀ s i, R s { s with info := i }
  problem : ∀ s file range p, p.isCycle = false → R s { s with problems := (file, range, p) :: s.problems }
  symbol : ∀ s x, x.kind.isTypeName = false → R s { s with model := (s.model.addSymbol x).2 }
  composite : ∀ x body, x.underlying = .pending → (∀ id, Runs R (body id)) →
    (∀ id s, ((body id).run s).1.isComposite = true) → Runs R (addComposite x body)

-- What the functions for expressions and statements do to a state.
class Routine (R : State → State → Prop) : Prop extends TypeRoutine R where
  crashed : ∀ s, R s { s with crashed := true }
  addScope : ∀ s x, R s { s with model := (s.model.addScope x).2 }
  declare : ∀ s scope name entry, R s { s with model := s.model.declare scope name entry }

-- The rules keep to the relation on every tree.
class RunsRules (R : State → State → Prop) (r : Rules) : Prop where
  expr : ∀ t expected?, Runs R (r.expr t expected?)
  statement : ∀ t, Runs R (r.statement t)

-- So does a specification that is looked into by such rules.
class Resolves (R : State → State → Prop) : Prop where
  resolveSpec : ∀ r index, RunsRules R r → Runs R (resolveSpec r index)

variable {R : State → State → Prop} {α β γ : Type}

section Loops

variable [IsPreorder State R] {l : List γ}

instance (priority := low) {init : β} {f : γ → β → CheckM (ForInStep β)} [h : ∀ x acc, Runs R (f x acc)] :
    Runs R (forIn l init f) :=
  .forIn fun x _ acc => h x acc

instance (priority := low) {f : γ → CheckM PUnit} [h : ∀ x, Runs R (f x)] : Runs R (forM l f) :=
  .forM fun x _ => h x

instance (priority := low) {f : γ → CheckM β} [h : ∀ x, Runs R (f x)] : Runs R (l.mapM f) :=
  .mapM fun x _ => h x

instance (priority := low) {init : β} {f : β → γ → CheckM β} [h : ∀ acc x, Runs R (f acc x)] :
    Runs R (l.foldlM f init) :=
  .foldlM fun x _ acc => h acc x

instance (priority := low) {f : γ → CheckM (Option β)} [h : ∀ x, Runs R (f x)] : Runs R (l.filterMapM f) :=
  .filterMapM fun x _ => h x

instance (priority := low) {o : Option γ} {f : γ → CheckM β} [h : ∀ x, Runs R (f x)] : Runs R (o.mapM f) :=
  .optionMapM fun x _ => h x

end Loops

section Moves

variable [TypeRoutine R] {id : SymbolId} {range : Text.ByteRange} {ty : Ty} {name : String} {t : Tree}
variable {ident : Token}

instance (priority := low) {f : Info → Info} : Runs R (modifyInfo f) := ⟨fun s => TypeRoutine.info s _⟩

instance (priority := low) {x : Symbol} [h : Refuted x.kind.isTypeName] : Runs R (addSymbol x) :=
  ⟨fun s => TypeRoutine.symbol s x h.eq_false⟩

theorem Runs.addSymbol_bind {x : Symbol} {f : SymbolId → CheckM α} (hx : x.kind.isTypeName = false)
    (hf : ∀ id, Runs R (f id)) : Runs R (addSymbol x >>= f) :=
  have : Refuted x.kind.isTypeName := ⟨hx⟩
  .bind inferInstance hf

omit [TypeRoutine R] in
-- A new symbol that is declared by the token has the kind that it is declared with.
theorem Runs.declared_bind {kind : SymbolKind} {f : Symbol → CheckM α}
    (hf : ∀ x, x.kind = kind → Runs R (f x)) : Runs R (declared ident kind >>= f) :=
  ⟨fun s => (hf _ rfl).run s⟩

instance (priority := low) {file : FileId} {p : Problem} [h : Refuted p.isCycle] :
    Runs R (problemIn file range p) :=
  ⟨fun s => TypeRoutine.problem s file range p h.eq_false⟩

instance (priority := low) {p : Problem} [Refuted p.isCycle] : Runs R (problem range p) := by
  unfold problem
  infer_instance

omit [TypeRoutine R] in
theorem run_get_bind (f : State → CheckM α) (s : State) : (get >>= f : CheckM α).run s = (f s).run s := rfl

omit [TypeRoutine R] in
theorem run_context_bind (f : Context → CheckM α) (s : State) :
    (context >>= f).run s = (f s.context).run s := rfl

omit [TypeRoutine R] in
theorem run_model_bind (f : Model → CheckM α) (s : State) : (model >>= f).run s = (f s.model).run s := rfl

omit [TypeRoutine R] in
theorem run_symbol_bind (id : SymbolId) (f : Symbol → CheckM α) (s : State) :
    (symbol id >>= f).run s = (f (s.model.symbol id)).run s := rfl

-- Where the check is does not matter.
theorem Runs.withinContext {c : Context} {body : CheckM α} (h : Runs R body) : Runs R (within c body) :=
  ⟨fun s => trans_of R (TypeRoutine.context s c) (trans_of R (h.run _) (TypeRoutine.context _ s.context))⟩

instance (priority := low) {value : Option Constant} : Runs R (recordType t ty value) :=
  ⟨fun s => TypeRoutine.info s _⟩

instance (priority := low) : Runs R (recordExpected t ty) := ⟨fun s => TypeRoutine.info s _⟩

instance (priority := low) : Runs R (recordDef range id) := ⟨fun s => TypeRoutine.info s _⟩

instance (priority := low) : Runs R (recordUse range id) := ⟨fun s => TypeRoutine.info s _⟩

instance (priority := low) {call : CallInfo} : Runs R (recordCall t call) := ⟨fun s => TypeRoutine.info s _⟩

end Moves

section Types

variable [TypeRoutine R] {resolve : Tree → CheckM Ty} [∀ t, Runs R (resolve t)] {t : Tree}
variable {owner : NamedId} {ident : Token}

instance (priority := low) {name : String} : Runs R (typeSymbol? name) := .of_read fun _ => rfl

instance (priority := low) : Runs R (typeOfName ident) := by
  unfold typeOfName
  refine .bind inferInstance fun id? => ?_
  split <;> infer_instance

instance (priority := low) : Runs R (packageOf? ident) := by
  unfold packageOf?
  refine .bind inferInstance fun id? => ?_
  split <;> infer_instance

instance (priority := low) {qualifier : Token} : Runs R (typeOfQualified qualifier ident) := by
  unfold typeOfQualified
  refine .bind inferInstance fun package? => ?_
  split
  · refine .bind inferInstance fun m => ?_
    split
    · split <;> infer_instance
    · infer_instance
  · infer_instance

instance (priority := low) {params : List Tree} : Runs R (typesFromLast resolve params) := by
  induction params with
  | nil =>
      unfold typesFromLast
      infer_instance
  | cons param rest ih =>
      unfold typesFromLast
      refine .bind ih fun found => ?_
      obtain ⟨types, carried⟩ := found
      dsimp only
      split <;> infer_instance

instance (priority := low) : Runs R (paramsOf resolve t) := by
  have (p : Tree) : Runs R (match p.name?.bind Tree.ident? with
      | some ident => typeOfName ident
      | none => pure .invalid) := by
    split <;> infer_instance
  unfold paramsOf
  infer_instance

instance (priority := low) : Runs R (resultTypes resolve t) := by
  unfold resultTypes
  split <;> infer_instance

instance (priority := low) : Runs R (signatureWith resolve t) := by
  unfold signatureWith
  infer_instance

instance (priority := low) {ty : Ty} {fields : List Field} {embedded : Bool} :
    Runs R (addField owner ty fields ident embedded) := by
  unfold addField
  refine .declared_bind fun x hx => .addSymbol_bind ?_ fun id => ?_
  · split <;> exact congrArg SymbolKind.isTypeName hx
  · infer_instance

instance (priority := low) : Runs R (structFields resolve t owner) := by
  unfold structFields
  have (fields : List Field) (decl : Tree) : Runs R (match decl.type? with
      | some type => do
          let ty ← resolve type
          (fieldIdents decl type).foldlM (fun fields (ident, embedded) =>
            addField owner ty fields ident embedded) fields
      | none => pure fields) := by
    split <;> infer_instance
  infer_instance

instance (priority := low) : Runs R (interfaceMethods resolve t owner) := by
  unfold interfaceMethods
  refine .filterMapM fun spec _ => ?_
  split
  · refine .bind inferInstance fun signature => .declared_bind fun x hx =>
      .addSymbol_bind ?_ fun id => inferInstance
    exact congrArg SymbolKind.isTypeName hx
  · infer_instance

omit [∀ t, Runs R (resolve t)] in
theorem Runs.composite {x : NamedType} {body : NamedId → CheckM α} {g : α → Underlying}
    (hx : x.underlying = .pending) (hg : ∀ found, (g found).isComposite = true)
    (hbody : ∀ id, Runs R (body id)) :
    Runs R (do
      let id ← addNamed x
      let found ← body id
      modifyModel (·.modifyNamed id fun n => { n with underlying := g found })
      return Ty.named id) :=
  ⟨(TypeRoutine.composite x (fun id => g <$> body id) hx (fun id => ⟨(hbody id).run⟩) fun _ _ => hg _).run⟩

instance (priority := low) : Runs R (typeStep resolve t) := by
  unfold typeStep
  split
  · split <;> infer_instance
  · split <;> infer_instance
  · split <;> infer_instance
  · split <;> infer_instance
  · split <;> infer_instance
  · infer_instance
  · exact .composite rfl (fun _ => rfl) fun _ => inferInstance
  · split
    · infer_instance
    · exact .composite rfl (fun _ => rfl) fun _ => inferInstance
  · infer_instance

instance (priority := low) {fuel : Nat} : Runs R (typeWithin fuel t) := by
  induction fuel generalizing t with
  | zero =>
      unfold typeWithin
      infer_instance
  | succ fuel ih =>
      unfold typeWithin
      infer_instance

instance (priority := low) : Runs R (typeOf t) := by
  unfold typeOf
  infer_instance

instance (priority := low) : Runs R (signatureOf t) := by
  unfold signatureOf
  infer_instance

end Types

end Check

end SpriteScript
