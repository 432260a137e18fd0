import SpriteScript.Proofs.Checking.Routine

-- The rules for expressions and statements keep to a relation, however far they lead into each
-- other, if every routine move does and every specification that is looked into.
namespace SpriteScript.Check

-- The instances for the parts of a long function are found in one search.
set_option synthInstance.maxSize 1000

variable {R : State → State → Prop} {α : Type}

section Moves

variable [Routine R]

instance (priority := low) : Runs R crash := ⟨Routine.crashed⟩

instance (priority := low) {x : Scope} : Runs R (addScope x) := ⟨fun s => Routine.addScope s x⟩

instance (priority := low) {scope : ScopeId} {name : String} {entry : ScopeEntry} :
    Runs R (modifyModel (·.declare scope name entry)) :=
  ⟨fun s => Routine.declare s scope name entry⟩

theorem Runs.inNewScope {kind : ScopeKind} {range : Text.ByteRange} {inclusiveEnd : Bool} {body : CheckM α}
    (h : Runs R body) : Runs R (inScope kind range inclusiveEnd body) := by
  have (scope : ScopeId) :
      Runs R (modify fun s => { s with context := { s.context with scope } } : CheckM Unit) :=
    ⟨fun s => TypeRoutine.context s _⟩
  unfold inScope
  infer_instance

theorem Runs.returningResults {results : List Ty} {body : CheckM α} (h : Runs R body) :
    Runs R (returning results body) := by
  have (results : Option (List Ty)) :
      Runs R (modify fun s => { s with context := { s.context with results } } : CheckM Unit) :=
    ⟨fun s => TypeRoutine.context s _⟩
  unfold returning
  infer_instance

instance (priority := low) {ident : Token} {kind : SymbolKind} [h : Refuted kind.isTypeName] {ty : Ty}
    {visibleFrom : Nat} {value : Option Constant} :
    Runs R (declareLocal ident kind ty visibleFrom value) := by
  unfold declareLocal
  refine .declared_bind fun x hx => .addSymbol_bind ?_ fun id => inferInstance
  rw [← h.eq_false, ← hx]

end Moves

section Values

variable [Routine R] {t : Tree} {o : Operand} {ty : Ty} {value : Option Constant} {index : Nat}

instance (priority := low) : Runs R (describe t o) := .of_read fun _ => rfl

omit [Routine R] in
theorem isCycle_valueProblem? {m : Model} {text : String} {p : Problem}
    (h : valueProblem? m text o = some p) : Refuted p.isCycle := by
  unfold valueProblem? at h
  split at h
  case h_2 =>
    split at h <;> cases h
    infer_instance
  all_goals cases h
  all_goals infer_instance

instance (priority := low) : Runs R (checkValue t o) := by
  unfold checkValue
  split
  · infer_instance
  · refine .bind inferInstance fun m => ?_
    split
    case h_1 p hp =>
      have := isCycle_valueProblem? hp
      infer_instance
    case h_2 => infer_instance

instance (priority := low) : Runs R (convertedValue ty value) := by
  unfold convertedValue
  refine .bind inferInstance fun kind? => ?_
  split <;> infer_instance

instance (priority := low) : Runs R (convertRecorded t o ty) := by
  unfold convertRecorded
  infer_instance

instance (priority := low) {purpose : String} : Runs R (assignTo t o ty purpose) := by
  unfold assignTo
  infer_instance

instance (priority := low) : Runs R (defaultType t o) := by
  unfold defaultType
  refine .bind inferInstance fun fits => ?_
  split
  · infer_instance
  · split <;> infer_instance

instance (priority := low) {type? : Option Ty} {isConst : Bool} :
    Runs R (initialValue t o type? isConst) := by
  unfold initialValue
  split
  · infer_instance
  · split <;> infer_instance

variable {r : Rules} [hr : RunsRules R r]

instance (priority := low) {expected? : Option Ty} : Runs R (r.expr t expected?) := hr.expr t expected?

instance (priority := low) : Runs R (r.statement t) := hr.statement t

instance (priority := low) {count : Nat} {isConst : Bool} : Runs R (specValues r t count isConst) := by
  unfold specValues
  refine .bind inferInstance fun type? => ?_
  dsimp only
  split
  · infer_instance
  · split
    · infer_instance
    · split
      · refine .bind inferInstance fun o => ?_
        split
        · split
          · refine .mapM fun item _ => ?_
            split <;> infer_instance
          · infer_instance
        · infer_instance
      · infer_instance

end Values

section Specifications

-- The symbols of a specification get what was found of them.
def settleAll (p : PendingSpec) (values : List (Ty × Option Constant)) : CheckM Unit :=
  (p.symbols.zip values).forM fun (id, ty, value) => settle p.isConst id ty value

-- A specification is looked into.
def lookIntoSpec (r : Rules) (index : Nat) (p : PendingSpec) : CheckM Unit := do
  setProgress index .running
  let values ← within p.context (specValues r p.spec p.symbols.length p.isConst)
  settleAll p values
  setProgress index .finished

-- A specification that leads back to itself.
def reportCycle (p : PendingSpec) : CheckM Unit := do
  let m ← model
  let name := (p.symbols.head?.map fun first => (m.symbol first).name).getD ""
  problemIn p.context.file p.spec.range (.initCycle name)

theorem resolveSpec_eq (r : Rules) (index : Nat) : resolveSpec r index = (do
    let some p := (← get).specs[index]? | return
    match p.progress with
    | .finished => return
    | .running => reportCycle p
    | .untouched => lookIntoSpec r index p) := by
  unfold resolveSpec lookIntoSpec settleAll
  simp only [forIn_eq_forM, List.forM_eq_forM]
  rfl

-- A specification is looked into once.
theorem resolveSpec_cases (r : Rules) (index : Nat) (s : State) :
    (∀ p, s.specs[index]? = some p → p.progress = .finished) ∧ (resolveSpec r index).run s = (⟨⟩, s) ∨
    ∃ p, s.specs[index]? = some p ∧
      (p.progress = .running ∧ (resolveSpec r index).run s = (reportCycle p).run s ∨
        p.progress = .untouched ∧ (resolveSpec r index).run s = (lookIntoSpec r index p).run s) := by
  rw [resolveSpec_eq, run_get_bind]
  cases hp : s.specs[index]? with
  | none => exact .inl ⟨fun _ h => (nomatch h), rfl⟩
  | some p =>
      dsimp only
      cases hprogress : p.progress with
      | finished => exact .inl ⟨fun _ h => Option.some.inj h ▸ hprogress, rfl⟩
      | running => exact .inr ⟨p, rfl, .inl ⟨hprogress, rfl⟩⟩
      | untouched => exact .inr ⟨p, rfl, .inr ⟨hprogress, rfl⟩⟩

variable [Routine R]

-- A specification that is looked into gives types to its symbols.
theorem Resolves.of_moves (hcycle : ∀ file range name, Runs R (problemIn file range (.initCycle name)))
    (hprogress : ∀ index progress, Runs R (setProgress index progress))
    (hsettle : ∀ isConst id ty value, Runs R (settle isConst id ty value)) : Resolves R where
  resolveSpec r index hr := by
    refine ⟨fun s => ?_⟩
    rcases resolveSpec_cases r index s with ⟨-, hrun⟩ | ⟨p, -, ⟨-, hrun⟩ | ⟨-, hrun⟩⟩
    · rw [hrun]
      exact refl_of R s
    · have hreport : Runs R (reportCycle p) := .bind inferInstance fun m => hcycle _ _ _
      rw [hrun]
      exact hreport.run s
    · have hvalues : Runs R (within p.context (specValues r p.spec p.symbols.length p.isConst)) :=
        .withinContext inferInstance
      have hsettled (values : List (Ty × Option Constant)) : Runs R (settleAll p values) :=
        .forM fun _ _ => hsettle _ _ _ _
      have hlook : Runs R (lookIntoSpec r index p) := by
        unfold lookIntoSpec
        infer_instance
      rw [hrun]
      exact hlook.run s

variable {r : Rules} [hr : RunsRules R r]

instance (priority := low) [Resolves R] {id : SymbolId} : Runs R (ensureResolved r id) := by
  have hspec (index : Nat) : Runs R (resolveSpec r index) := Resolves.resolveSpec r index hr
  unfold ensureResolved
  refine .bind inferInstance fun s => ?_
  split <;> infer_instance

end Specifications

variable [Routine R] [Resolves R] {r : Rules} [hr : RunsRules R r] {t : Tree} {ty : Ty} {o : Operand}
variable {expected? : Option Ty}

section Literals

instance (priority := low) : Runs R (checkElement r t expected?) := by
  unfold checkElement
  refine .bind inferInstance fun o => ?_
  split <;> infer_instance

instance (priority := low) {fields : List Field} : Runs R (keyedField? fields ty t) := by
  unfold keyedField?
  split
  · infer_instance
  · split
    · split <;> infer_instance
    · infer_instance

instance (priority := low) {fields : List Field} {position : Nat} :
    Runs R (checkStructElement r fields ty position t) := by
  unfold checkStructElement
  split
  · extract_lets next
    have hnext (fieldType? : Option Ty) : Runs R (next fieldType?) := by
      unfold next
      split <;> infer_instance
    split <;> infer_instance
  · infer_instance

instance (priority := low) {key value : Ty} : Runs R (checkPair r key value t) := by
  unfold checkPair
  split
  · extract_lets next
    have hnext (u : Unit) : Runs R (next u) := by
      unfold next
      split <;> infer_instance
    split
    · exact .bind inferInstance hnext
    · exact hnext ()
  · infer_instance

instance (priority := low) {body? : Option Tree} : Runs R (checkBody r body? ty) := by
  unfold checkBody
  split
  · refine .bind inferInstance fun known => ?_
    split
    · infer_instance
    · infer_instance
    · infer_instance
    · refine .bind (.forIn fun e _ _ => ?_) fun _ => inferInstance
      split
      · split <;> infer_instance
      · infer_instance
    · infer_instance
  · infer_instance

instance (priority := low) : Runs R (literalType r t) := by
  unfold literalType
  split
  · infer_instance
  · refine .bind inferInstance fun o => ?_
    split <;> infer_instance

instance (priority := low) : Runs R (checkComposite r t expected?) := by
  unfold checkComposite
  split <;> infer_instance

instance (priority := low) : Runs R (checkList r t expected?) := by
  unfold checkList
  refine .bind inferInstance fun known? => ?_
  split
  · infer_instance
  · refine .bind (.foldlM fun e _ elem? => .bind inferInstance fun o => ?_) fun elem? => inferInstance
    split <;> infer_instance

instance (priority := low) : Runs R (checkTextMap r t) := by
  unfold checkTextMap
  refine .bind (.forIn fun e _ _ => ?_) fun _ => inferInstance
  extract_lets next
  have hnext (u : Unit) : Runs R (next u) := by
    unfold next
    split <;> infer_instance
  split
  · split
    · exact .bind inferInstance hnext
    · exact .bind inferInstance fun o => .bind inferInstance hnext
  · exact hnext ()

instance (priority := low) : Runs R (checkMap r t expected?) := by
  unfold checkMap
  split
  · refine .bind inferInstance fun known => ?_
    split <;> infer_instance
  · infer_instance

end Literals

section Expressions

variable {op : TokenKind} {left right : Operand}

instance (priority := low) {id : SymbolId} : Runs R (symbolOperand id) := .of_read fun _ => rfl

instance (priority := low) {ident : Token} {id : SymbolId} : Runs R (useSymbol r ident id) := by
  unfold useSymbol
  infer_instance

instance (priority := low) : Runs R (checkName r t) := by
  unfold checkName
  split
  · split
    · infer_instance
    · refine .bind inferInstance fun id? => ?_
      split <;> infer_instance
  · infer_instance

instance (priority := low) : Runs R (checkLiteral t) := by
  unfold checkLiteral
  split
  · split <;> infer_instance
  all_goals infer_instance

instance (priority := low) : Runs R (namedPackage? t) := by
  unfold namedPackage?
  split
  · infer_instance
  · split
    · refine .bind inferInstance fun id? => ?_
      split <;> infer_instance
    · infer_instance

instance (priority := low) : Runs R (checkSelector r t) := by
  unfold checkSelector
  split
  · split
    · refine .bind inferInstance fun package? => ?_
      split
      · refine .bind inferInstance fun _ => .bind inferInstance fun m => ?_
        split <;> infer_instance
      · refine .bind inferInstance fun o => ?_
        split
        · infer_instance
        · refine .bind inferInstance fun m => ?_
          split <;> infer_instance
    · infer_instance
  · infer_instance

instance (priority := low) : Runs R (checkIndex r t) := by
  unfold checkIndex
  split
  · refine .bind inferInstance fun o => ?_
    extract_lets leave next
    have hnext (found? : Option (Ty × Ty)) : Runs R (next found?) := by
      unfold next leave
      split <;> split <;> infer_instance
    split <;> infer_instance
  · infer_instance

instance (priority := low) {range : Text.ByteRange} : Runs R (noOperator range op t o) := by
  unfold noOperator
  infer_instance

instance (priority := low) {inner : Tree} : Runs R (checkReceive t inner o) := by
  unfold checkReceive
  refine .bind inferInstance fun known => ?_
  split <;> infer_instance

instance (priority := low) : Runs R (checkUnary r t) := by
  unfold checkUnary
  split
  · refine .bind inferInstance fun o => ?_
    split
    · infer_instance
    · split
      · infer_instance
      · refine .bind inferInstance fun kind? => ?_
        split
        · split <;> infer_instance
        · infer_instance
  · infer_instance

instance (priority := low) {side : Tree} {other : Operand} : Runs R (convertOperand t side o other) := by
  unfold convertOperand
  infer_instance

instance (priority := low) {lhs rhs : Tree} : Runs R (matchOperands t lhs rhs left right) := by
  unfold matchOperands
  split
  · split <;> infer_instance
  all_goals infer_instance

instance (priority := low) {range : Text.ByteRange} : Runs R (folded range op left right ty) := by
  unfold folded
  split
  · refine .bind inferInstance fun leftKind? => .bind inferInstance fun rightKind? => ?_
    dsimp only
    split
    · refine .bind inferInstance fun kind? => ?_
      split <;> infer_instance
    all_goals infer_instance
  · infer_instance

instance (priority := low) : Runs R (checkShift t op left right) := by
  unfold checkShift
  infer_instance

instance (priority := low) : Runs R (checkBinary r t) := by
  unfold checkBinary
  split
  · refine .bind inferInstance fun left => .bind inferInstance fun right => ?_
    split
    · infer_instance
    · split
      · infer_instance
      · refine .bind inferInstance fun matched? => ?_
        split <;> infer_instance
  all_goals infer_instance

instance (priority := low) {idents : List (Option Token)} {types : List Ty} {kind : SymbolKind}
    [Refuted kind.isTypeName] : Runs R (declareParams idents types kind) := by
  unfold declareParams
  refine .bind (.forIn fun param _ _ => ?_) fun _ => inferInstance
  obtain ⟨ident?, ty⟩ := param
  dsimp only
  split <;> infer_instance

instance (priority := low) : Runs R (checkFuncLit r t) := by
  have (signature : Signature) : Runs R (inScope .lambda t.range false do
      if let some list := t.paramList? then
        declareParams (paramIdents list) signature.params .param
      returning signature.results do
        for s in (t.block?.map Tree.statements).getD [] do
          r.statement s) := by
    have hbody : Runs R (returning signature.results do
        for s in (t.block?.map Tree.statements).getD [] do
          r.statement s) := .returningResults inferInstance
    refine Runs.inNewScope ?_
    split <;> infer_instance
  unfold checkFuncLit
  infer_instance

instance (priority := low) : Runs R (checkLambda r t expected?) := by
  unfold checkLambda
  refine .bind inferInstance fun known? => ?_
  extract_lets names next
  have hnext (expectedFunc? : Option (List Ty × Bool × List Ty)) : Runs R (next expectedFunc?) := by
    unfold next
    extract_lets params results types
    refine .bind (Runs.inNewScope (.bind inferInstance fun _ => Runs.returningResults ?_)) fun _ => ?_
    · split
      · infer_instance
      · refine .bind inferInstance fun o => ?_
        split <;> infer_instance
      · infer_instance
    · split <;> infer_instance
  split <;> infer_instance

end Expressions

section Calls

variable {a : Arguments} {call callee : Tree} {name : String} {s : Signature} {exprs : List Tree}
variable {id : SymbolId}

instance (priority := low) : Runs R (checkAll r exprs) := by
  unfold checkAll
  infer_instance

instance (priority := low) {id? : Option SymbolId} : Runs R (receiverOf callee id?) := by
  unfold receiverOf
  refine .bind inferInstance fun s => ?_
  split
  · infer_instance
  · dsimp only
    split <;> infer_instance

omit [Routine R] [Resolves R] hr in
theorem isCycle_countProblem? {range : Text.ByteRange} {p : Problem}
    (h : countProblem? call name s a = some (range, p)) :
    Refuted p.isCycle := by
  unfold countProblem? at h
  split at h
  · cases h
    infer_instance
  · obtain ⟨arg, -, heq⟩ := Option.map_eq_some_iff.mp h
    cases heq
    infer_instance

instance (priority := low) : Runs R (applySignature r call name s a) := by
  unfold applySignature
  extract_lets fits next
  have hnext (u : Unit) : Runs R (next u) := by
    refine .bind (.forIn fun entry _ _ => ?_) fun _ => inferInstance
    obtain ⟨⟨arg, checked?⟩, index⟩ := entry
    dsimp -zeta only
    extract_lets param? after
    clear_value param?
    have hafter (o : Operand) : Runs R (after o) := by
      unfold after
      split <;> infer_instance
    split
    · split <;> infer_instance
    · infer_instance
  split
  · split
    case h_1 range p hp =>
      have := isCycle_countProblem? hp
      exact .bind inferInstance hnext
    case h_2 => exact .bind inferInstance hnext
  · exact hnext ()

instance (priority := low) : Runs R (overloads? o) := by
  unfold overloads?
  refine .bind inferInstance fun m => ?_
  dsimp only
  split <;> infer_instance

instance (priority := low) : Runs R (noOverload r call name a) := by
  unfold noOverload
  infer_instance

instance (priority := low) : Runs R (checkFuncCall r call callee o) := by
  unfold checkFuncCall
  extract_lets name
  refine .bind inferInstance fun signatures? => ?_
  split
  · refine .bind inferInstance fun receivers => ?_
    obtain ⟨receiver, implicitReceiver⟩ := receivers
    refine .bind inferInstance fun all => .bind inferInstance fun m => ?_
    dsimp only
    split <;> infer_instance
  · infer_instance

instance (priority := low) : Runs R (checkConversion r call ty) := by
  unfold checkConversion
  split <;> infer_instance

instance (priority := low) : Runs R (checkLen r call) := by
  unfold checkLen
  split
  · refine .bind inferInstance fun o => ?_
    split
    · infer_instance
    · split <;> infer_instance
  · infer_instance

instance (priority := low) : Runs R (checkAppend r call expected?) := by
  unfold checkAppend
  split
  · infer_instance
  · refine .bind inferInstance fun o => ?_
    split
    · infer_instance
    · refine .bind inferInstance fun known => ?_
      split <;> infer_instance

instance (priority := low) : Runs R (checkBuiltin r call o expected?) := by
  unfold checkBuiltin
  split
  · refine .bind inferInstance fun s => ?_
    split <;> infer_instance
  · infer_instance

instance (priority := low) : Runs R (checkCall r call expected?) := by
  unfold checkCall
  split
  · refine .bind inferInstance fun o => ?_
    split <;> infer_instance
  · infer_instance

instance (priority := low) : Runs R (checkBareCall t id) := by
  unfold checkBareCall
  refine .bind inferInstance fun s => ?_
  split <;> infer_instance

end Calls

section Statements

variable {lhs rhs : List Tree} {types : List Ty} {value target : Tree} {purpose : String}

instance (priority := low) {ts : List Tree} : Runs R (checkStatements r ts) := by
  unfold checkStatements
  infer_instance

instance (priority := low) : Runs R (checkBlock r t) := Runs.inNewScope inferInstance

instance (priority := low) {isConst : Bool} : Runs R (checkLocalSpec r isConst t) := by
  unfold checkLocalSpec
  refine .bind inferInstance fun values => .bind (.forIn fun bound _ _ => ?_) fun _ => inferInstance
  obtain ⟨name, ty, value⟩ := bound
  dsimp only
  split <;> infer_instance

instance (priority := low) : Runs R (checkExprStmt r t) := by
  unfold checkExprStmt
  split
  · refine .bind inferInstance fun o => ?_
    split
    · infer_instance
    · extract_lets inner next
      have hnext (callable? : Option SymbolId) : Runs R (next callable?) := by
        unfold next
        split <;> infer_instance
      split <;> infer_instance
  · infer_instance

instance (priority := low) : Runs R (checkIncDec r t) := by
  unfold checkIncDec
  split <;> infer_instance

instance (priority := low) : Runs R (checkSend r t) := by
  unfold checkSend
  extract_lets next
  have hnext (elem? : Option Ty) : Runs R (next elem?) := by
    unfold next
    split
    · refine .bind inferInstance fun o => ?_
      split <;> infer_instance
    · infer_instance
  split
  · refine .bind inferInstance fun o => ?_
    split
    · infer_instance
    · refine .bind inferInstance fun known => ?_
      split <;> infer_instance
  · infer_instance

instance (priority := low) : Runs R (checkTarget r t) := by
  unfold checkTarget
  infer_instance

instance (priority := low) : Runs R (checkCompound r t target value) := by
  unfold checkCompound
  infer_instance

instance (priority := low) {count : Nat} : Runs R (spreadTypes r t count rhs) := by
  unfold spreadTypes
  extract_lets next
  have hnext (u : Unit) : Runs R (next u) := by
    unfold next
    infer_instance
  split
  · refine .bind inferInstance fun o => ?_
    split
    · infer_instance
    · split
      · split <;> infer_instance
      · infer_instance
  · infer_instance

instance (priority := low) : Runs R (checkPlainAssign r t lhs rhs) := by
  unfold checkPlainAssign
  refine .bind inferInstance fun targets => ?_
  split
  · refine .bind (.forIn fun pair _ _ => ?_) fun _ => inferInstance
    obtain ⟨target?, value⟩ := pair
    refine .bind inferInstance fun o => ?_
    split <;> infer_instance
  · refine .bind inferInstance fun items => ?_
    split
    · refine .bind (.forIn fun pair _ _ => ?_) fun _ => inferInstance
      obtain ⟨target?, item⟩ := pair
      dsimp only
      split <;> infer_instance
    · infer_instance

instance (priority := low) : Runs R (checkAssign r t) := by
  unfold checkAssign
  dsimp only
  split
  · split <;> infer_instance
  · infer_instance

instance (priority := low) : Runs R (bindDefined t lhs types) := by
  unfold bindDefined
  refine .bind (.forIn fun pair _ found => ?_) fun acc => inferInstance
  obtain ⟨target, ty⟩ := pair
  obtain ⟨anyNew, anyBad⟩ := found
  dsimp only
  split
  · infer_instance
  · split
    · refine .bind inferInstance fun c => .bind inferInstance fun entry? => ?_
      split <;> infer_instance
    · infer_instance

instance (priority := low) : Runs R (checkDefine r t) := by
  unfold checkDefine
  infer_instance

instance (priority := low) : Runs R (checkReturn r t) := by
  unfold checkReturn
  dsimp only
  refine .bind inferInstance fun c => ?_
  split
  · infer_instance
  · split
    · infer_instance
    · split
      · infer_instance
      · split
        · refine .bind inferInstance fun o => ?_
          split
          · infer_instance
          · split <;> infer_instance
        · infer_instance

instance (priority := low) : Runs R (checkCondition r t purpose) := by
  unfold checkCondition
  infer_instance

instance (priority := low) : Runs R (checkIf r t) := by
  refine Runs.inNewScope ?_
  extract_lets branch body condition
  have hbranch (u : Unit) : Runs R (branch u) := by
    unfold branch
    split <;> infer_instance
  have hbody (u : Unit) : Runs R (body u) := by
    unfold body
    split
    · exact .bind inferInstance hbranch
    · exact hbranch ()
  have hcondition (u : Unit) : Runs R (condition u) := by
    unfold condition
    split
    · exact .bind inferInstance hbody
    · exact hbody ()
  split
  · exact .bind inferInstance hcondition
  · exact hcondition ()

instance (priority := low) : Runs R (rangeTypes t o) := by
  unfold rangeTypes
  split
  · infer_instance
  · refine .bind inferInstance fun known => ?_
    split <;> infer_instance

instance (priority := low) : Runs R (checkRangeClause r t) := by
  unfold checkRangeClause
  extract_lets lhs next
  have hnext (types : Ty × Ty) : Runs R (next types) := by
    obtain ⟨key, value⟩ := types
    dsimp -zeta only [next]
    extract_lets assign
    have hassign (u : Unit) : Runs R (assign u) := by
      unfold assign
      split
      · infer_instance
      · refine .bind (.forIn fun pair _ _ => ?_) fun _ => inferInstance
        obtain ⟨target, ty⟩ := pair
        refine .bind inferInstance fun target? => ?_
        split <;> infer_instance
    split
    · exact .bind inferInstance hassign
    · exact hassign ()
  split <;> infer_instance

instance (priority := low) : Runs R (checkFor r t) := by
  refine Runs.inNewScope ?_
  extract_lets body
  have hbody (u : Unit) : Runs R (body u) := by
    unfold body
    split <;> infer_instance
  split
  · extract_lets post condition
    have hpost (u : Unit) : Runs R (post u) := by
      unfold post
      split
      · exact .bind inferInstance hbody
      · exact hbody ()
    have hcondition (u : Unit) : Runs R (condition u) := by
      unfold condition
      split
      · exact .bind inferInstance hpost
      · exact hpost ()
    split
    · exact .bind inferInstance hcondition
    · exact hcondition ()
  · exact .bind inferInstance hbody
  · exact .bind inferInstance hbody
  · exact hbody ()

instance (priority := low) : Runs R (checkCase r t ty value) := by
  unfold checkCase
  infer_instance

instance (priority := low) : Runs R (checkSwitch r t) := by
  refine Runs.inNewScope ?_
  extract_lets clauses
  have hclauses (u : Unit) : Runs R (clauses u) := by
    refine .bind inferInstance fun tag? => .bind (.forIn fun clause _ _ => ?_) fun _ => inferInstance
    have hblock : Runs R (inScope .block clause.range true (checkStatements r clause.clauseStatements)) :=
      Runs.inNewScope inferInstance
    refine .bind (.forIn fun value _ _ => ?_) fun _ => inferInstance
    split <;> infer_instance
  split
  · exact .bind inferInstance hclauses
  · exact hclauses ()

instance (priority := low) : Runs R (checkSelect r t) := by
  unfold checkSelect
  refine .bind (.forIn fun clause _ _ => .bind (Runs.inNewScope ?_) fun _ => inferInstance) fun _ =>
    inferInstance
  split <;> infer_instance

instance (priority := low) : Runs R (statementStep r t) := by
  unfold statementStep
  split
  case h_1 | h_2 => exact .forM fun _ _ => inferInstance
  all_goals infer_instance

instance (priority := low) : Runs R (exprStep r t expected?) := by
  unfold exprStep
  extract_lets record
  have hrecord (o : Operand) : Runs R (record o) := by
    dsimp -zeta only [record]
    extract_lets result expect
    have hexpect (u : Unit) : Runs R (expect u) := by
      unfold expect result
      split <;> infer_instance
    split
    · exact .bind inferInstance hexpect
    · exact hexpect ()
  split
  case h_3 => split <;> infer_instance
  all_goals exact .bind inferInstance hrecord

end Statements

-- However often the rules lead into each other.
instance (priority := low) {fuel : Nat} : RunsRules R (rules fuel) := by
  induction fuel with
  | zero => exact ⟨fun _ _ => .of_read fun _ => rfl, fun _ => .of_read fun _ => rfl⟩
  | succ fuel ih =>
      exact ⟨fun t expected? => (inferInstance : Runs R (exprStep (rules fuel) t expected?)),
        fun t => (inferInstance : Runs R (statementStep (rules fuel) t))⟩

end SpriteScript.Check
