import SpriteScript.Proofs.Checking.Statements
import SpriteScript.Proofs.Identifiers.Calls

-- Statements are read once, and so are trees of every kind by the rules.
namespace SpriteScript.Check

-- The instances for the parts of a long function are found in one search.
set_option synthInstance.maxSize 1000

variable {ground : Ground} {file : FileId} {r : Rules} [ReadsRules r]

section Blocks

theorem reads_checkStatements (ts : List Tree) : Reads ground file ts (checkStatements r ts) := by
  unfold checkStatements
  exact (reads_statements ts).before fun _ => inferInstance

theorem reads_checkBlock (t : Tree) : Reads ground file [t] (checkBlock r t) :=
  Reads.inScope ((reads_checkStatements t.statements).below (t.below_one _))

theorem reads_checkLocalSpec (isConst : Bool) (spec : Tree) :
    Reads ground file [spec] (checkLocalSpec r isConst spec) := by
  refine Reads.below ?_ spec.below_spec
  unfold checkLocalSpec
  refine .bind (reads_specValues spec _ isConst) fun values => Reads.before
    (.forIn_of (e := Prod.fst) (sublist_fst_zip _ _) fun (name, ty, value) _ _ => ?_) fun _ => inferInstance
  dsimp only
  split
  case h_1 ident hident =>
    refine Reads.below ?_ (Tree.below_ident hident)
    exact (reads_declareLocal ident _ _ _ _).before fun _ => inferInstance
  case h_2 => exact .of_runs inferInstance

end Blocks

section Simple

variable {t : Tree}

theorem reads_checkExprStmt (t : Tree) : Reads ground file [t] (checkExprStmt r t) := by
  unfold checkExprStmt
  split
  case h_1 e he =>
    refine Reads.below ((reads_expr e none).before fun o => ?_) (Tree.below_of_child? he)
    split
    · infer_instance
    · extract_lets inner next
      have hnext (callable? : Option SymbolId) : Runs (Passing ground file) (next callable?) := by
        unfold next
        split <;> infer_instance
      split <;> infer_instance
  case h_2 => exact .of_runs inferInstance

theorem reads_checkIncDec (t : Tree) : Reads ground file [t] (checkIncDec r t) := by
  unfold checkIncDec
  split
  case h_1 e he =>
    exact Reads.below ((reads_expr e none).before fun o => inferInstance) (Tree.below_of_child? he)
  case h_2 => exact .of_runs inferInstance

theorem reads_checkSend (t : Tree) : Reads ground file [t] (checkSend r t) := by
  refine Reads.below ?_ t.below_pair
  unfold checkSend
  extract_lets next
  have hnext (elem? : Option Ty) : Reads ground file t.secondExpr?.toList (next elem?) := by
    unfold next
    split
    case h_1 value hvalue =>
      rw [hvalue]
      refine reads_expr_before value elem? fun facts o _ => ?_
      split <;> infer_instance
    case h_2 => exact .of_runs inferInstance
  split
  case h_1 channel hchannel =>
    rw [hchannel]
    refine .bind (reads_expr channel none) fun o => ?_
    split
    · exact .after inferInstance hnext
    · refine .after inferInstance fun u => ?_
      split
      · exact .after inferInstance hnext
      · exact .after inferInstance fun text => .after inferInstance fun _ => .after inferInstance hnext
  case h_2 => exact (Reads.after inferInstance hnext).sublist (List.sublist_append_right _ _)

theorem reads_checkTarget (target : Tree) : Reads ground file [target] (checkTarget r target) := by
  unfold checkTarget
  split
  · exact .of_runs inferInstance
  · exact (reads_expr target none).before fun o => inferInstance

theorem reads_checkCompound (t target value : Tree) :
    Reads ground file [target, value] (checkCompound r t target value) := by
  unfold checkCompound
  exact .bind_cons (reads_checkTarget target) fun ty =>
    reads_expr_before value _ fun facts o _ => inferInstance

theorem reads_spreadTypes (t : Tree) (count : Nat) (values : List Tree) :
    Reads ground file values (spreadTypes r t count values) := by
  unfold spreadTypes
  extract_lets next
  have hnext (u : Unit) : Runs (Passing ground file) (next u) := by
    unfold next
    infer_instance
  split
  case h_1 value =>
    refine (reads_expr value none).before fun o => ?_
    split
    · infer_instance
    · split
      · split <;> infer_instance
      · infer_instance
  case h_2 => exact (reads_checkAll values).before hnext

theorem reads_checkPlainAssign (t : Tree) (lhs rhs : List Tree) :
    Reads ground file (lhs ++ rhs) (checkPlainAssign r t lhs rhs) := by
  unfold checkPlainAssign
  refine .bind (.mapM_trees fun target _ => reads_checkTarget target) fun targets => ?_
  split
  · refine Reads.before (.forIn_of (e := Prod.snd) (sublist_snd_zip _ _) fun x _ _ => ?_) fun _ =>
      inferInstance
    obtain ⟨target?, value⟩ := x
    refine reads_expr_before value _ fun facts o _ => ?_
    split <;> infer_instance
  · refine (reads_spreadTypes t _ rhs).before fun items => ?_
    split
    · refine .bind (.forIn fun x _ _ => ?_) fun _ => inferInstance
      dsimp only
      split
      · exact .bind (.forIn fun value _ _ => inferInstance) fun _ => inferInstance
      · infer_instance
    · infer_instance

theorem reads_checkAssign (t : Tree) : Reads ground file [t] (checkAssign r t) := by
  refine Reads.below ?_ t.below_sides
  unfold checkAssign
  dsimp only
  split
  · generalize t.listed 0 = lhs
    generalize t.listed 1 = rhs
    split
    case h_1 target others value values =>
      refine (reads_checkCompound t target value).sublist ?_
      exact ((List.nil_sublist others).cons_cons target).append ((List.nil_sublist values).cons_cons value)
    case h_2 => exact .of_runs inferInstance
  · exact reads_checkPlainAssign t _ _

-- A name on the left of a definition is either new or used.
theorem reads_bindDefined (t : Tree) (lhs : List Tree) (types : List Ty) :
    Reads ground file lhs (bindDefined t lhs types) := by
  unfold bindDefined
  dsimp only
  refine Reads.before (.forIn_of (e := Prod.fst) (sublist_fst_zip _ _) fun x _ acc => ?_) fun acc =>
    inferInstance
  obtain ⟨target, ty⟩ := x
  dsimp only
  split
  case h_1 => exact .of_runs inferInstance
  case h_2 ident hident =>
    have hname : target.ident? = some ident := by
      split at hident
      · exact hident
      · cases hident
    refine Reads.below ?_ (Tree.below_ident hname)
    split
    · refine .after inferInstance fun c => .after inferInstance fun found => ?_
      split
      · refine (reads_recordUse ident _).before fun _ => ?_
        infer_instance
      · exact (reads_declareLocal ident _ _ _ _).before fun _ => inferInstance
    · exact .of_runs inferInstance

theorem reads_checkDefine (t : Tree) : Reads ground file [t] (checkDefine r t) := by
  refine Reads.below ?_ ((Tree.Below.of_perm List.perm_append_comm).trans t.below_sides)
  unfold checkDefine
  dsimp only
  split
  · refine .bind (.mapM_trees fun value _ => ?_) (reads_bindDefined t _)
    exact reads_expr_before value none fun facts o _ => inferInstance
  · refine .bind (reads_spreadTypes t _ _) fun types? => .after inferInstance (reads_bindDefined t _)

theorem reads_checkReturn (t : Tree) : Reads ground file [t] (checkReturn r t) := by
  refine Reads.below ?_ ((t.below_listed 0).trans (t.below_one _))
  unfold checkReturn
  dsimp only
  generalize t.listed 0 = values
  refine .after inferInstance fun c => ?_
  split
  · exact reads_checkAll values
  · split
    · exact .of_runs inferInstance
    · split
      · refine Reads.before (.forIn_of (e := Prod.fst) (sublist_fst_zip _ _) fun x _ _ => ?_) fun _ =>
          inferInstance
        obtain ⟨value, result⟩ := x
        exact reads_expr_before value _ fun facts o _ => inferInstance
      · split
        · refine (reads_expr _ none).before fun o => ?_
          split
          · infer_instance
          · split <;> infer_instance
        · exact (reads_checkAll values).before fun _ => inferInstance

theorem reads_checkCondition (t : Tree) (purpose : String) :
    Reads ground file [t] (checkCondition r t purpose) := by
  unfold checkCondition
  exact reads_expr_before t none fun facts o _ => inferInstance

end Simple

section Compound

instance (t : Tree) (o : Operand) : Runs (Passing ground file) (rangeTypes t o) := by
  unfold rangeTypes
  split
  · infer_instance
  · refine .bind inferInstance fun u => ?_
    split <;> infer_instance

theorem reads_checkRangeClause (clause : Tree) : Reads ground file [clause] (checkRangeClause r clause) := by
  refine Reads.below ?_ clause.below_rangeClause
  unfold checkRangeClause
  extract_lets lhs next
  have hnext (types : Ty × Ty) : Reads ground file (clause.listed 0) (next types) := by
    obtain ⟨key, value⟩ := types
    dsimp -zeta only [next]
    extract_lets assign
    have hassign (u : Unit) : Reads ground file (clause.listed 0) (assign u) := by
      unfold assign
      split
      · exact reads_bindDefined clause _ _
      · refine Reads.before (.forIn_of (e := Prod.fst) (sublist_fst_zip _ _) fun x _ _ => ?_) fun _ =>
          inferInstance
        obtain ⟨target, ty⟩ := x
        refine (reads_checkTarget target).before fun targetTy => ?_
        split <;> infer_instance
    split
    · exact .after inferInstance hassign
    · exact hassign ()
  split
  case h_1 e he =>
    rw [he]
    exact .bind (reads_expr e none) fun o => .after inferInstance hnext
  case h_2 => exact (Reads.after inferInstance hnext).sublist (List.sublist_append_right _ _)

theorem reads_checkFor (t : Tree) : Reads ground file [t] (checkFor r t) := by
  refine Reads.inScope (Reads.below ?_ t.below_for)
  extract_lets body
  have hbody (u : Unit) : Reads ground file t.block?.toList (body u) := by
    unfold body
    split
    case h_1 block hblock =>
      rw [hblock]
      exact reads_checkBlock block
    case h_2 => exact .of_runs inferInstance
  split
  case h_1 clause hclause =>
    rw [hclause]
    refine Reads.sublist ?_ (List.Sublist.append_left
      ((List.sublist_append_right _ _).trans (List.sublist_append_right _ _)) [clause])
    have hparts := clause.below_forClause.left t.block?.toList
    rw [List.append_assoc, List.append_assoc] at hparts
    refine Reads.below ?_ hparts
    extract_lets post condition
    have hpost (u : Unit) : Reads ground file (clause.forPost?.toList ++ t.block?.toList) (post u) := by
      unfold post
      split
      case h_1 post hpost =>
        rw [hpost]
        exact .bind (reads_statement post) hbody
      case h_2 => exact (hbody ()).sublist (List.sublist_append_right _ _)
    have hcondition (u : Unit) :
        Reads ground file (clause.forCondition?.toList ++ (clause.forPost?.toList ++ t.block?.toList))
          (condition u) := by
      unfold condition
      split
      case h_1 condition hcondition =>
        rw [hcondition]
        exact .bind (reads_checkCondition condition "for") hpost
      case h_2 => exact (hpost ()).sublist (List.sublist_append_right _ _)
    split
    case h_1 init hinit =>
      rw [hinit]
      exact .bind (reads_statement init) hcondition
    case h_2 => exact (hcondition ()).sublist (List.sublist_append_right _ _)
  case h_2 clause _ hclause =>
    rw [hclause]
    refine Reads.sublist (.bind (reads_checkRangeClause clause) hbody) ?_
    exact (List.Sublist.append_left (List.sublist_append_right _ _) [clause]).trans
      (List.sublist_append_right _ _)
  case h_3 condition _ _ hcondition =>
    rw [hcondition]
    refine Reads.sublist (.bind (reads_checkCondition condition "for") hbody) ?_
    exact (List.sublist_append_right _ _).trans (List.sublist_append_right _ _)
  case h_4 =>
    refine (hbody ()).sublist ?_
    exact (List.sublist_append_right _ _).trans
      ((List.sublist_append_right _ _).trans (List.sublist_append_right _ _))

theorem reads_checkCase (tag value : Tree) (tagTy : Ty) :
    Reads ground file [value] (checkCase r tag tagTy value) := by
  unfold checkCase
  exact reads_expr_before value _ fun facts o _ => inferInstance

theorem reads_checkIf (t : Tree) : Reads ground file [t] (checkIf r t) := by
  refine Reads.inScope (Reads.below ?_ t.below_if)
  extract_lets branch body condition
  have hbranch (u : Unit) : Reads ground file t.elseParts (branch u) := by
    unfold branch Tree.elseParts
    cases t.elseBranch? with
    | none => exact .of_runs inferInstance
    | some branch =>
        cases branch with
        | ifStmt nested => exact reads_statement nested
        | block block => exact reads_checkBlock block
  have hbody (u : Unit) : Reads ground file (t.block?.toList ++ t.elseParts) (body u) := by
    unfold body
    split
    case h_1 block hblock =>
      rw [hblock]
      exact .bind (reads_checkBlock block) hbranch
    case h_2 => exact (hbranch ()).sublist (List.sublist_append_right _ _)
  have hcondition (u : Unit) :
      Reads ground file (t.expr?.toList ++ (t.block?.toList ++ t.elseParts)) (condition u) := by
    unfold condition
    split
    case h_1 e he =>
      rw [he]
      exact .bind (reads_checkCondition e "if") hbody
    case h_2 => exact (hbody ()).sublist (List.sublist_append_right _ _)
  split
  case h_1 init hinit =>
    rw [hinit]
    exact .bind (reads_statement init) hcondition
  case h_2 => exact (hcondition ()).sublist (List.sublist_append_right _ _)

theorem reads_checkSwitch (t : Tree) : Reads ground file [t] (checkSwitch r t) := by
  refine Reads.inScope (Reads.below ?_ t.below_switch)
  extract_lets clauses
  have hclauses (u : Unit) : Reads ground file (t.expr?.toList ++ t.childrenOf .caseClause) (clauses u) := by
    refine .bind (.optionMapM_tree fun tag _ => ?_) fun tag? =>
      Reads.before (.forIn_trees fun clause _ _ => ?_) fun _ => inferInstance
    · exact reads_expr_before tag none fun facts o _ => inferInstance
    · refine Reads.below ?_ clause.below_caseClause
      refine .bind (.forIn_trees fun value _ _ => ?_) fun _ =>
        (Reads.inScope (reads_checkStatements _)).before fun _ => inferInstance
      split
      · exact (reads_checkCase _ value _).before fun _ => inferInstance
      · exact (reads_checkCondition value "case").before fun _ => inferInstance
  split
  case h_1 init hinit =>
    rw [hinit]
    exact .bind (reads_statement init) hclauses
  case h_2 => exact (hclauses ()).sublist (List.sublist_append_right _ _)

theorem reads_checkSelect (t : Tree) : Reads ground file [t] (checkSelect r t) := by
  refine Reads.below ?_ (t.below_one (· == .commClause))
  unfold checkSelect
  refine Reads.before (.forIn_trees fun clause _ _ => ?_) fun _ => inferInstance
  refine .of_stands fun text hstands => ?_
  refine Reads.below (Reads.before (Reads.inScope ?_) fun _ => inferInstance) (Tree.below_commClause hstands)
  split
  case h_1 comm hcomm =>
    rw [hcomm]
    exact .bind (reads_statement comm) fun _ => reads_checkStatements _
  case h_2 => exact (reads_checkStatements _).sublist (List.sublist_append_right _ _)

end Compound

section Rules

theorem reads_statementStep (t : Tree) : Reads ground file [t] (statementStep r t) := by
  unfold statementStep
  split
  case h_1 | h_2 =>
    exact Reads.below (.forM_trees fun spec _ => reads_checkLocalSpec _ spec) (t.below_one _)
  case h_3 => exact reads_checkExprStmt t
  case h_4 => exact reads_checkAssign t
  case h_5 => exact reads_checkDefine t
  case h_6 => exact reads_checkIncDec t
  case h_7 => exact reads_checkSend t
  case h_8 => exact reads_checkReturn t
  case h_9 => exact reads_checkIf t
  case h_10 => exact reads_checkFor t
  case h_11 => exact reads_checkSwitch t
  case h_12 => exact reads_checkSelect t
  case h_13 => exact reads_checkBlock t
  case h_14 => exact .of_runs inferInstance

theorem Told.of_kind {t : Tree} {value : Option Constant} (h : t.kind? ≠ some .nameRef) :
    Told ground file t value :=
  ⟨fun hkind => absurd hkind h⟩

theorem learns_exprStep (t : Tree) (expected? : Option Ty) :
    Learns ground file [t] (exprStep r t expected?) fun ground o => Told ground file t o.value := by
  unfold exprStep
  extract_lets record
  have hrecord (ground : Ground) (o : Operand) (h : Told ground file t o.value) :
      Learns ground file [] (record o) fun ground o => Told ground file t o.value := by
    dsimp -zeta only [record]
    extract_lets result expect
    have hexpect (u : Unit) : Runs (Passing ground file) (expect u) := by
      unfold expect result
      split <;> infer_instance
    have hresult (u : Unit) (s : State) : Told ground file t ((expect u).run s).1.value := by
      unfold expect result
      split <;> exact h
    split
    · exact .of_runs (.bind inferInstance hexpect) fun s => hresult () _
    · exact .of_runs (hexpect ()) (hresult ())
  have hother {a : CheckM Operand} (ha : Reads ground file [t] a) (hkind : t.kind? ≠ some .nameRef) :
      Learns ground file [t] (a >>= record) fun ground o => Told ground file t o.value :=
    (Learns.of_reads (P := fun ground o => Told ground file t o.value) ha fun _ =>
      .of_kind hkind).before_learns fun _ o ho => hrecord _ o ho
  split
  case h_1 => exact (learns_checkName t).before_learns fun facts o ho => hrecord _ o ho
  case h_2 hkind => exact hother (.of_runs inferInstance) (by simp [hkind])
  case h_3 hkind =>
    split
    case h_1 inner hinner =>
      exact hother ((reads_expr inner expected?).below (Tree.below_of_child? hinner)) (by simp [hkind])
    case h_2 => exact hother (.of_runs inferInstance) (by simp [hkind])
  case h_4 hkind => exact hother (reads_checkSelector t) (by simp [hkind])
  case h_5 hkind => exact hother (reads_checkCall t expected?) (by simp [hkind])
  case h_6 hkind => exact hother (reads_checkCall t expected?) (by simp [hkind])
  case h_7 hkind => exact hother (reads_checkIndex t) (by simp [hkind])
  case h_8 hkind => exact hother (reads_checkComposite t expected?) (by simp [hkind])
  case h_9 hkind => exact hother (reads_checkUnary t) (by simp [hkind])
  case h_10 hkind => exact hother (reads_checkBinary t) (by simp [hkind])
  case h_11 hkind => exact hother (reads_checkFuncLit t) (by simp [hkind])
  case h_12 hkind => exact hother (reads_checkLambda t expected?) (by simp [hkind])
  case h_13 hkind => exact hother (reads_checkList t expected?) (by simp [hkind])
  case h_14 hkind => exact hother (reads_checkMap t expected?) (by simp [hkind])
  case h_15 hname _ _ _ _ _ _ _ _ _ _ _ _ _ => exact hother (.of_runs inferInstance) hname

end Rules

-- The rules read a tree once, however deep they go.
instance (fuel : Nat) : ReadsRules (rules fuel) := by
  induction fuel with
  | zero =>
      exact ⟨fun _ _ _ _ => .of_runs (inferInstance : Runs _ (pure .invalid : CheckM Operand))
          fun _ => ⟨fun _ _ h => nomatch h⟩,
        fun _ _ _ => .of_runs (inferInstance : Runs _ (pure ⟨⟩ : CheckM Unit))⟩
  | succ fuel ih =>
      exact ⟨fun _ _ t expected? => learns_exprStep (r := rules fuel) t expected?,
        fun _ _ t => reads_statementStep (r := rules fuel) t⟩

end SpriteScript.Check
