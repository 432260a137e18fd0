import SpriteScript.Proofs.Checking.Calls

-- Statements, and the rules for trees of every kind.
namespace SpriteScript.Check

-- The instances for the parts of a long function are found in one search.
set_option synthInstance.maxSize 1000

variable {w : Stage} {file : FileId} {r : Rules} [KeepsRules w r]

section Blocks

instance (ts : List Tree) [SitAll w file ts] : Keeps w file (checkStatements r ts) := by
  have := keeps_statements (r := r) (inferInstance : SitAll w file ts)
  unfold checkStatements
  infer_instance

variable {t : Tree} [Sits w file t]

instance : Keeps w file (checkBlock r t) := KeepsRules.inScope (r := r) fun _ _ _ => inferInstance

instance (isConst : Bool) : Keeps w file (checkLocalSpec r isConst t) := by
  unfold checkLocalSpec
  refine .bind inferInstance fun values => .bind (.forIn fun entry hentry _ => ?_) fun _ => inferInstance
  have : Sits w file entry.1 := .of_mem (List.of_mem_zip hentry).1
  split
  split
  case h_1 ident hident =>
    have : FreeWord w file ident := .of_ident? hident
    infer_instance
  case h_2 => infer_instance

end Blocks

section Simple

variable {t : Tree} [Sits w file t]

instance : Keeps w file (checkExprStmt r t) := by
  unfold checkExprStmt
  split
  case h_1 e he =>
    have : Sits w file e := .of_childWith? he
    refine .bind inferInstance fun o => ?_
    split
    · infer_instance
    · extract_lets inner next
      have hnext (callable? : Option SymbolId) : Keeps w file (next callable?) := by
        unfold next
        split <;> infer_instance
      split <;> infer_instance
  case h_2 => infer_instance

instance : Keeps w file (checkIncDec r t) := by
  unfold checkIncDec
  split
  case h_1 e he =>
    have : Sits w file e := .of_childWith? he
    infer_instance
  case h_2 => infer_instance

instance : Keeps w file (checkSend r t) := by
  unfold checkSend
  extract_lets next
  have hnext (elem? : Option Ty) : Keeps w file (next elem?) := by
    unfold next
    split
    case h_1 value hvalue =>
      have : Sits w file value := .of_getElem? hvalue
      refine .bind inferInstance fun o => ?_
      split <;> infer_instance
    case h_2 => infer_instance
  split
  case h_1 channel hchannel =>
    have : Sits w file channel := .of_childWith? hchannel
    refine .bind inferInstance fun o => ?_
    split
    · infer_instance
    · refine .bind inferInstance fun u => ?_
      split <;> infer_instance
  case h_2 => infer_instance

instance : Keeps w file (checkTarget r t) := by
  unfold checkTarget
  infer_instance

instance (target value : Tree) [Sits w file target] [Sits w file value] :
    Keeps w file (checkCompound r t target value) := by
  unfold checkCompound
  infer_instance

instance (count : Nat) (values : List Tree) [hvalues : SitAll w file values] :
    Keeps w file (spreadTypes r t count values) := by
  unfold spreadTypes
  extract_lets next
  have hnext (u : Unit) : Keeps w file (next u) := by
    unfold next
    infer_instance
  split
  case h_1 value =>
    have : Sits w file value := hvalues.sits value List.mem_cons_self
    refine .bind inferInstance fun o => ?_
    split
    · infer_instance
    · split
      · split
        · infer_instance
        · infer_instance
      · infer_instance
  case h_2 => infer_instance

instance (lhs rhs : List Tree) [hlhs : SitAll w file lhs] [hrhs : SitAll w file rhs] :
    Keeps w file (checkPlainAssign r t lhs rhs) := by
  unfold checkPlainAssign
  refine .bind (.mapM fun target htarget => ?_) fun targets => ?_
  · have : Sits w file target := hlhs.sits target htarget
    infer_instance
  · split
    · refine .bind (.forIn fun entry hentry _ => ?_) fun _ => inferInstance
      have : Sits w file entry.2 := hrhs.sits _ (List.of_mem_zip hentry).2
      split
      refine .bind inferInstance fun o => ?_
      split <;> infer_instance
    · refine .bind inferInstance fun items => ?_
      split
      · refine .bind (.forIn fun entry _ _ => ?_) fun _ => inferInstance
        split
        split
        · refine .bind (.forIn fun value hvalue _ => ?_) fun _ => inferInstance
          have : Sits w file value := hrhs.sits value hvalue
          infer_instance
        · infer_instance
      · infer_instance

instance : Keeps w file (checkAssign r t) := by
  have hlhs : SitAll w file (t.listed 0) := inferInstance
  have hrhs : SitAll w file (t.listed 1) := inferInstance
  unfold checkAssign
  dsimp only
  generalize t.listed 0 = lhs at hlhs
  generalize t.listed 1 = rhs at hrhs
  split
  · split
    case h_1 target _ value _ =>
      have : Sits w file target := hlhs.sits target List.mem_cons_self
      have : Sits w file value := hrhs.sits value List.mem_cons_self
      infer_instance
    case h_2 => infer_instance
  · infer_instance

theorem keeps_bindDefined {lhs : List Tree} {types : List Ty} (hlhs : SitAll w file lhs) :
    Keeps w file (bindDefined t lhs types) := by
  unfold bindDefined
  dsimp only
  refine .bind (.forIn fun (target, ty) hentry (anyNew, anyBad) => ?_) fun acc => ?_
  · have : Sits w file target := hlhs.sits _ (List.of_mem_zip hentry).1
    dsimp only
    split
    case h_1 => infer_instance
    case h_2 ident hident =>
      have : FreeWord w file ident := by
        split at hident
        · exact .of_ident? hident
        · cases hident
      split
      · refine .bind inferInstance fun c => Keeps.bind_find inferInstance finds_boundIn?
          (fun found => ?_) fun found hfound => ?_
        · split <;> infer_instance
        · split
          case h_1 entry =>
            have := hfound entry rfl
            infer_instance
          case h_2 => infer_instance
      · infer_instance
  · infer_instance

instance : Keeps w file (checkDefine r t) := by
  have hlhs : SitAll w file (t.listed 0) := inferInstance
  have hrhs : SitAll w file (t.listed 1) := inferInstance
  have hbind (types : List Ty) : Keeps w file (bindDefined t (t.listed 0) types) := keeps_bindDefined hlhs
  unfold checkDefine
  dsimp only
  split
  · refine .bind (.mapM fun value hvalue => ?_) hbind
    have : Sits w file value := hrhs.sits value hvalue
    infer_instance
  · infer_instance

instance : Keeps w file (checkReturn r t) := by
  have hvalues : SitAll w file (t.listed 0) := inferInstance
  unfold checkReturn
  dsimp only
  generalize t.listed 0 = values at hvalues
  refine .bind inferInstance fun c => ?_
  split
  · infer_instance
  · split
    · infer_instance
    · split
      · refine .bind (.forIn fun (value, result) hentry _ => ?_) fun _ => inferInstance
        have : Sits w file value := hvalues.sits _ (List.of_mem_zip hentry).1
        infer_instance
      · split
        · have := hvalues.sits _ List.mem_cons_self
          refine .bind inferInstance fun o => ?_
          split
          · infer_instance
          · split <;> infer_instance
        · infer_instance

instance (purpose : String) : Keeps w file (checkCondition r t purpose) := by
  unfold checkCondition
  infer_instance

end Simple

section Compound

variable {t : Tree} [Sits w file t]

instance (o : Operand) : Keeps w file (rangeTypes t o) := by
  unfold rangeTypes
  split
  · infer_instance
  · refine .bind inferInstance fun u => ?_
    split <;> infer_instance

instance : Keeps w file (checkRangeClause r t) := by
  have hlhs : SitAll w file (t.listed 0) := inferInstance
  unfold checkRangeClause
  extract_lets lhs next
  have hnext (types : Ty × Ty) : Keeps w file (next types) := by
    obtain ⟨key, value⟩ := types
    dsimp -zeta only [next]
    extract_lets assign
    have hassign (u : Unit) : Keeps w file (assign u) := by
      unfold assign
      split
      · exact keeps_bindDefined hlhs
      · refine .bind (.forIn fun (target, ty) hentry _ => ?_) fun _ => inferInstance
        have : Sits w file target := hlhs.sits _ (List.of_mem_zip hentry).1
        refine .bind inferInstance fun targetTy => ?_
        split <;> infer_instance
    split
    · exact .bind inferInstance hassign
    · exact hassign ()
  split
  case h_1 e he =>
    have : Sits w file e := .of_childWith? he
    infer_instance
  case h_2 => infer_instance

theorem mem_of_segment? {count : Nat} {ts : List Tree} {c : Tree}
    (h : Tree.segment? count ts = some c) : c ∈ ts := by
  fun_induction Tree.segment? count ts with
  | case1 => cases h
  | case2 => cases h
  | case3 _ _ _ _ ih => exact List.mem_cons_of_mem _ (ih h)
  | case4 _ _ _ _ ih => exact List.mem_cons_of_mem _ (ih h)
  | case5 => exact Option.some.inj h ▸ List.mem_cons_self
  | case6 _ _ _ _ ih => exact List.mem_cons_of_mem _ (ih h)

theorem sits_of_segment? {count : Nat} {c : Tree} {p : Tree → Bool}
    (h : (Tree.segment? count t.children).filter p = some c) : Sits w file c :=
  .child (mem_of_segment? (Option.filter_eq_some_iff.mp h).1)

instance : Keeps w file (checkFor r t) := by
  refine KeepsRules.inScope (r := r) fun w _ _ => ?_
  extract_lets body
  have hbody (u : Unit) : Keeps w file (body u) := by
    unfold body
    split
    case h_1 block hblock =>
      have : Sits w file block := .of_childWith? hblock
      infer_instance
    case h_2 => infer_instance
  split
  case h_1 clause hclause =>
    have : Sits w file clause := .of_childWith? hclause
    extract_lets post condition
    have hpost (u : Unit) : Keeps w file (post u) := by
      unfold post
      split
      case h_1 post hpost =>
        have : Sits w file post := sits_of_segment? hpost
        exact .bind inferInstance hbody
      case h_2 => exact hbody ()
    have hcondition (u : Unit) : Keeps w file (condition u) := by
      unfold condition
      split
      case h_1 condition hcondition =>
        have : Sits w file condition := sits_of_segment? hcondition
        exact .bind inferInstance hpost
      case h_2 => exact hpost ()
    split
    case h_1 init hinit =>
      have : Sits w file init := sits_of_segment? hinit
      exact .bind inferInstance hcondition
    case h_2 => exact hcondition ()
  case h_2 clause _ hclause =>
    have : Sits w file clause := .of_childWith? hclause
    exact .bind inferInstance hbody
  case h_3 condition _ _ hcondition =>
    have : Sits w file condition := .of_childWith? hcondition
    exact .bind inferInstance hbody
  case h_4 => exact hbody ()

instance (tag value : Tree) (tagTy : Ty) [Sits w file value] :
    Keeps w file (checkCase r tag tagTy value) := by
  unfold checkCase
  infer_instance

theorem sits_of_elseBranch? {branch : Tree.ElseBranch} (h : t.elseBranch? = some branch) :
    match branch with
    | .ifStmt nested => Sits w file nested
    | .block block => Sits w file block := by
  unfold Tree.elseBranch? at h
  split at h
  case h_1 nested hnested =>
    cases h
    exact .of_childWith? hnested
  case h_2 =>
    obtain ⟨block, hblock, rfl⟩ := Option.map_eq_some_iff.mp h
    exact .of_getElem? hblock

instance : Keeps w file (checkIf r t) := by
  refine KeepsRules.inScope (r := r) fun w _ _ => ?_
  extract_lets branch body condition
  have hbranch (u : Unit) : Keeps w file (branch u) := by
    unfold branch
    split
    case h_1 nested hnested =>
      have : Sits w file nested := sits_of_elseBranch? hnested
      infer_instance
    case h_2 block hblock =>
      have : Sits w file block := sits_of_elseBranch? hblock
      infer_instance
    case h_3 => infer_instance
  have hbody (u : Unit) : Keeps w file (body u) := by
    unfold body
    split
    case h_1 block hblock =>
      have : Sits w file block := .of_childWith? hblock
      exact .bind inferInstance hbranch
    case h_2 => exact hbranch ()
  have hcondition (u : Unit) : Keeps w file (condition u) := by
    unfold condition
    split
    case h_1 e he =>
      have : Sits w file e := .of_childWith? he
      exact .bind inferInstance hbody
    case h_2 => exact hbody ()
  split
  case h_1 init hinit =>
    have : Sits w file init := .of_childWith? hinit
    exact .bind inferInstance hcondition
  case h_2 => exact hcondition ()

instance : Keeps w file (checkSwitch r t) := by
  refine KeepsRules.inScope (r := r) fun w _ _ => ?_
  extract_lets clauses
  have hclauses (u : Unit) : Keeps w file (clauses u) := by
    refine .bind (.optionMapM fun tag htag => ?_) fun tag? =>
      .bind (.forIn fun clause hclause _ => ?_) fun _ => inferInstance
    · have : Sits w file tag := .of_childWith? htag
      infer_instance
    · have : Sits w file clause := .of_mem hclause
      have hblock : Keeps w file
          (inScope .block clause.range true (checkStatements r clause.clauseStatements)) :=
        KeepsRules.inScope (r := r) fun _ _ _ => inferInstance
      refine .bind (.forIn fun value hvalue _ => ?_) fun _ => inferInstance
      have : Sits w file value := .of_mem hvalue
      split <;> infer_instance
  split
  case h_1 init hinit =>
    have : Sits w file init := .of_childWith? hinit
    exact .bind inferInstance hclauses
  case h_2 => exact hclauses ()

instance : Keeps w file (checkSelect r t) := by
  unfold checkSelect
  refine .bind (.forIn fun clause hclause _ => ?_) fun _ => inferInstance
  have : Sits w file clause := .of_mem hclause
  refine .bind (KeepsRules.inScope (r := r) fun w _ _ => ?_) fun _ => inferInstance
  split
  case h_1 comm hcomm =>
    have : Sits w file comm := by
      obtain ⟨colon, -, hfound⟩ := Option.bind_eq_some_iff.mp hcomm
      exact .child (List.mem_filter.mp (List.mem_filter.mp (List.mem_of_find?_eq_some hfound)).1).1
    infer_instance
  case h_2 => infer_instance

end Compound

section Rules

variable {t : Tree} [ht : Sits w file t]

instance : Keeps w file (statementStep r t) := by
  unfold statementStep
  split
  case h_1 | h_2 =>
    refine .forM fun spec hspec => ?_
    have : Sits w file spec := .of_mem hspec
    infer_instance
  all_goals infer_instance

theorem keeps_exprStep (expected? : Option Ty) : Keeps w file (exprStep r t expected?) := by
  have hcall (h : t.kind? = some .callExpr ∨ t.kind? = some .commandCall) :
      Keeps w file (checkCall r t expected?) :=
    keeps_checkCall (by rcases h with h | h <;> simp [Tree.isCall, h, NodeKind.isCall]) expected?
  unfold exprStep
  extract_lets record
  have hrecord (o : Operand) : Keeps w file (record o) := by
    dsimp -zeta only [record]
    extract_lets result expect
    have hexpect (u : Unit) : Keeps w file (expect u) := by
      unfold expect result
      split <;> infer_instance
    split
    · exact .bind inferInstance hexpect
    · exact hexpect ()
  split
  case h_3 =>
    split
    case h_1 inner hinner =>
      have : Sits w file inner := .of_childWith? hinner
      infer_instance
    case h_2 => infer_instance
  case h_5 hkind => exact .bind (hcall (.inl hkind)) hrecord
  case h_6 hkind => exact .bind (hcall (.inr hkind)) hrecord
  all_goals exact .bind inferInstance hrecord

end Rules

-- The rules keep to it, however deep they go.
instance {w : Setting} (fuel : Nat) : KeepsRules w (rules fuel) := by
  induction fuel with
  | zero =>
      exact ⟨fun span base file _ _ _ => (inferInstance :
        Keeps ⟨⟨w, span⟩, base⟩ file (pure .invalid : CheckM Operand)),
        fun span base file _ _ => (inferInstance : Keeps ⟨⟨w, span⟩, base⟩ file (pure ⟨⟩ : CheckM Unit))⟩
  | succ fuel ih =>
      exact ⟨fun span base file t expected? _ => keeps_exprStep (r := rules fuel) expected?,
        fun span base file t _ =>
        (inferInstance : Keeps ⟨⟨w, span⟩, base⟩ file (statementStep (rules fuel) t))⟩

end SpriteScript.Check
