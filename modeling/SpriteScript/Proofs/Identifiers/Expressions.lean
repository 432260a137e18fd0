import SpriteScript.Proofs.Checking.Expressions
import SpriteScript.Proofs.Identifiers.Values
import SpriteScript.Proofs.Resource.Places

-- Literals, names, operators and functions are read once.
namespace SpriteScript.Check

-- The instances for the parts of a long function are found in one search.
set_option synthInstance.maxSize 1000

variable {ground : Ground} {file : FileId} {r : Rules} [ReadsRules r]

section Literals

theorem reads_checkElement (value : Tree) (ty? : Option Ty) :
    Reads ground file [value] (checkElement r value ty?) := by
  unfold checkElement
  refine reads_expr_before value ty? fun facts o _ => ?_
  split <;> infer_instance

theorem reads_keyedField? (fields : List Field) (ty : Ty) (key : Tree) :
    Reads ground file [key] (keyedField? fields ty key) := by
  unfold keyedField?
  split
  · exact .of_runs inferInstance
  · split
    case h_1 ident hident =>
      split
      · exact ((reads_recordUse _ _).before fun _ => inferInstance).below (Tree.below_ident hident)
      · exact .of_runs inferInstance
    case h_2 => exact .of_runs inferInstance

theorem reads_checkStructElement (fields : List Field) (ty : Ty) (position : Nat) (e : Tree) :
    Reads ground file [e] (checkStructElement r fields ty position e) := by
  unfold checkStructElement
  split
  · refine Reads.below ?_ e.below_pair
    extract_lets next
    have hnext (fieldType? : Option Ty) : Reads ground file e.secondExpr?.toList (next fieldType?) := by
      unfold next
      split
      case h_1 value hvalue =>
        rw [hvalue]
        exact reads_checkElement value fieldType?
      case h_2 => exact .of_runs inferInstance
    split
    case h_1 key hkey =>
      rw [hkey]
      exact .bind (reads_keyedField? fields ty key) hnext
    case h_2 => exact (hnext none).sublist (List.sublist_append_right _ _)
  · extract_lets field? next
    have hnext (u : Unit) : Reads ground file [e] (next u) := reads_checkElement e _
    split
    · exact .after inferInstance fun name => .after inferInstance hnext
    · exact hnext ()

theorem reads_checkPair (key value : Ty) (e : Tree) : Reads ground file [e] (checkPair r key value e) := by
  unfold checkPair
  split
  · refine Reads.below ?_ e.below_pair
    extract_lets next
    have hnext (u : Unit) : Reads ground file e.secondExpr?.toList (next u) := by
      unfold next
      split
      case h_1 v hv =>
        rw [hv]
        exact reads_checkElement v (some value)
      case h_2 => exact .of_runs inferInstance
    split
    case h_1 k hk =>
      rw [hk]
      exact .bind (reads_checkElement k (some key)) hnext
    case h_2 => exact (hnext ()).sublist (List.sublist_append_right _ _)
  · exact reads_checkElement e (some value)

theorem reads_checkBody (body? : Option Tree) (ty : Ty) :
    Reads ground file ((body?.map Tree.elements).getD []) (checkBody r body? ty) := by
  unfold checkBody
  split
  case h_1 body =>
    dsimp only
    refine .after inferInstance fun u => ?_
    split
    · refine .after inferInstance fun named => ?_
      split
      · refine Reads.before (.forIn_of (e := Prod.fst) (by rw [List.zipIdx_map_fst]; rfl) fun x _ _ => ?_)
          fun _ => inferInstance
        obtain ⟨e, position⟩ := x
        exact (reads_checkStructElement named.fields ty position e).before fun _ => inferInstance
      · exact .of_runs inferInstance
    · refine Reads.before (.forIn_trees fun e _ _ => ?_) fun _ => inferInstance
      exact (reads_checkPair _ _ e).before fun _ => inferInstance
    · refine Reads.before (.forIn_trees fun e _ _ => ?_) fun _ => inferInstance
      split
      · exact .after inferInstance fun _ => (reads_checkPair _ _ e).before fun _ => inferInstance
      · exact (reads_checkPair _ _ e).before fun _ => inferInstance
    · refine Reads.before (.forIn_trees fun e _ _ => ?_) fun _ => inferInstance
      split
      · refine Reads.sublist ?_ (List.Sublist.refl _) |>.below e.below_pair
        split
        case h_1 value hvalue =>
          rw [hvalue]
          exact ((reads_expr value none).discard.before fun _ => inferInstance).sublist
            (List.sublist_append_right _ _)
        case h_2 => exact .of_runs inferInstance
      · exact (reads_expr e none).discard.before fun _ => inferInstance
    · exact .of_runs inferInstance
  case h_2 => exact .of_runs inferInstance

theorem reads_literalType (t : Tree) : Reads ground file [t] (literalType r t) := by
  unfold literalType
  split
  · exact reads_typeOf t
  · refine (reads_expr t none).before fun o => ?_
    split <;> infer_instance

theorem reads_checkComposite (t : Tree) (expected? : Option Ty) :
    Reads ground file [t] (checkComposite r t expected?) := by
  refine Reads.below ?_ t.below_composite
  unfold checkComposite
  extract_lets next
  have hnext (ty : Ty) : Reads ground file ((t.literalBody?.map Tree.elements).getD []) (next ty) :=
    (reads_checkBody _ ty).before fun _ => inferInstance
  split
  case h_1 named hnamed =>
    rw [hnamed]
    exact .bind (reads_literalType named) hnext
  case h_2 => exact (hnext _).sublist (List.sublist_append_right _ _)

theorem reads_checkList (t : Tree) (expected? : Option Ty) :
    Reads ground file [t] (checkList r t expected?) := by
  refine Reads.below ?_ (t.below_one NodeKind.isExpr)
  unfold checkList
  refine .after (.optionMapM fun ty _ => inferInstance) fun known? => ?_
  split
  · refine Reads.before (.forIn_trees fun e _ _ => ?_) fun _ => inferInstance
    exact reads_expr_before e _ fun facts o _ => inferInstance
  · refine Reads.before (.foldlM_trees fun e _ elem? => ?_) fun _ => inferInstance
    refine reads_expr_before e elem? fun facts o _ => ?_
    split <;> infer_instance

theorem reads_checkTextMap (t : Tree) : Reads ground file [t] (checkTextMap r t) := by
  refine Reads.below ?_ t.below_elements
  unfold checkTextMap
  refine Reads.sublist (Reads.before (.forIn_trees fun e _ _ => ?_) fun _ => inferInstance)
    List.filter_sublist
  refine Reads.below ?_ e.below_pair
  extract_lets next
  have hnext (ground : Ground) (u : Unit) : Reads ground file e.secondExpr?.toList (next u) := by
    unfold next
    split
    case h_1 value hvalue =>
      rw [hvalue]
      exact reads_expr_before value none fun facts o _ => inferInstance
    case h_2 => exact .of_runs inferInstance
  split
  case h_1 key hkey =>
    rw [hkey]
    split
    · exact (Reads.after inferInstance (hnext ground)).sublist (List.sublist_append_right _ _)
    · exact reads_expr_bind key _ fun facts o _ => .after inferInstance (hnext _)
  case h_2 => exact (hnext ground ()).sublist (List.sublist_append_right _ _)

theorem reads_checkMap (t : Tree) (expected? : Option Ty) :
    Reads ground file [t] (checkMap r t expected?) := by
  unfold checkMap
  split
  · extract_lets next
    have hnext (fits : Bool) : Reads ground file [t] (next fits) := by
      unfold next
      split
      · exact ((reads_checkBody _ _).before fun _ => inferInstance).below t.below_elements
      · exact reads_checkTextMap t
    refine .after inferInstance fun u => ?_
    split
    · exact hnext true
    · exact .after inferInstance fun named => hnext _
    · exact hnext false
  · exact reads_checkTextMap t

end Literals

section Expressions

variable {t : Tree}

instance (id : SymbolId) : Runs (Passing ground file) (symbolOperand id) := by
  unfold symbolOperand
  refine .bind inferInstance fun s => ?_
  infer_instance

theorem value_symbolOperand {id : SymbolId} {v : Constant} (s : State)
    (h : ((symbolOperand id).run s).1.value = some v) : (s.model.symbol id).value = some v := by
  unfold symbolOperand at h
  rw [StateT.run_bind] at h
  dsimp only [Bind.bind, Id.run] at h
  split at h
  case h_4 => exact h
  all_goals cases h

theorem learns_symbolOperand (id : SymbolId) : Learns ground file [] (symbolOperand id) fun ground o =>
    ∀ text, o.value = some (.string text) → Fact.value id text ∈ ground.facts := by
  intro rest s hs
  have hnext : Ahead ground file rest ((symbolOperand id).run s).2 :=
    Runs.run (R := Passing ground file) s rest hs
  by_cases htext : ∃ text, ((symbolOperand id).run s).1.value = some (.string text)
  · obtain ⟨text, htext⟩ := htext
    refine ⟨[.value id text], hnext.learn (List.forall_mem_singleton.mpr (value_symbolOperand s htext)), ?_⟩
    intro other hother
    cases htext.symm.trans hother
    exact List.mem_cons_self
  · exact ⟨[], hnext, fun text hvalue => absurd ⟨text, hvalue⟩ htext⟩

-- The text of a constant is that of the symbol that the identifier means.
theorem learns_useSymbol (ident : Token) (id : SymbolId) :
    Learns ground file [.token ident] (useSymbol r ident id) fun ground o => ∀ text,
      o.value = some (.string text) →
      Fact.use (file, rangeOf ident) id ∈ ground.facts ∧ Fact.value id text ∈ ground.facts := by
  unfold useSymbol
  refine (learns_recordUse ident id).before_learns fun facts _ huse => ?_
  refine .after inferInstance fun _ rest s hs => ?_
  obtain ⟨others, hnext, hvalue⟩ := learns_symbolOperand id rest s hs
  exact ⟨others, hnext, fun text htext => ⟨List.mem_append_right _ huse, hvalue text htext⟩⟩

theorem reads_useSymbol (ident : Token) (id : SymbolId) :
    Reads ground file [.token ident] (useSymbol r ident id) :=
  (learns_useSymbol ident id).reads

-- A name stands where its identifier does.
theorem range_of_ident? {text : String} {ident : Token} (hstands : t.StandsIn text)
    (hkind : t.kind? = some .nameRef) (hident : t.ident? = some ident) : t.range = rangeOf ident :=
  Place.range_of_atom (p := ⟨t, []⟩) hstands.lies hstands.tidy
    (Tree.atom?_of_ident? hstands.tidy hkind rfl hident)

theorem learns_checkName (t : Tree) :
    Learns ground file [t] (checkName r t) fun ground o => Told ground file t o.value := by
  have hinvalid (ground : Ground) : Told ground file t Operand.invalid.value := ⟨fun _ _ h => by cases h⟩
  refine .of_stands fun text hstands => ?_
  unfold checkName
  split
  case h_1 ident hident =>
    refine Learns.below ?_ (Tree.below_ident hident)
    split
    · exact .of_runs inferInstance fun _ => hinvalid _
    · refine .after inferInstance fun found => ?_
      split
      · refine (learns_useSymbol ident _).mono fun ground o ho => ⟨fun hkind text htext => ?_⟩
        exact ⟨_, range_of_ident? hstands hkind hident ▸ ho text htext⟩
      · exact .of_runs inferInstance fun _ => hinvalid _
  case h_2 => exact .of_runs inferInstance fun _ => hinvalid _

instance : Runs (Passing ground file) (checkLiteral t) := by
  unfold checkLiteral
  split
  · split <;> infer_instance
  · infer_instance
  · infer_instance
  · infer_instance

-- The name of a package is the one in the expression.
theorem ident?_of_namedPackage? (s : State) {ident : Token} {id : SymbolId} {package : Symbol}
    (h : ((namedPackage? t).run s).1 = some (ident, id, package)) : t.ident? = some ident := by
  unfold namedPackage? at h
  split at h
  · cases h
  · split at h
    case h_1 found hfound =>
      rw [StateT.run_bind] at h
      dsimp only [Bind.bind, Id.run] at h
      split at h
      case h_1 id _ =>
        change (if (_ : Bool) = true then some (found, id, _) else none) = _ at h
        split at h
        · cases h
          exact hfound
        · cases h
      case h_2 => cases h
    case h_2 => cases h

theorem reads_checkSelector (t : Tree) : Reads ground file [t] (checkSelector r t) := by
  unfold checkSelector
  split
  case h_1 base hbase =>
    split
    case h_1 name hname =>
      have hbelow := t.below_selector
      rw [hbase, hname] at hbelow
      refine Reads.below ?_ hbelow
      refine Reads.after_of inferInstance
        (P := fun found => ∀ ident id package, found = some (ident, id, package) → base.ident? = some ident)
        (fun s ident id package => ident?_of_namedPackage? s) fun found hfound => ?_
      split
      case h_1 ident id package =>
        refine Reads.below (.bind_cons (reads_recordUse ident id) fun _ => ?_)
          ((Tree.below_ident (hfound ident id package rfl)).left _)
        refine .after inferInstance fun m => ?_
        split
        · exact reads_useSymbol name _
        · exact .of_runs inferInstance
      case h_2 =>
        refine .bind_cons (reads_expr base none) fun o => ?_
        split
        · exact .of_runs inferInstance
        · refine .after inferInstance fun m => ?_
          split
          · exact reads_useSymbol name _
          · exact .of_runs inferInstance
    case h_2 =>
      exact ((reads_expr base none).discard.before fun _ => inferInstance).below (Tree.below_of_child? hbase)
  case h_2 => exact .of_runs inferInstance

theorem reads_checkIndex (t : Tree) : Reads ground file [t] (checkIndex r t) := by
  refine Reads.below ?_ t.below_pair
  unfold checkIndex
  split
  case h_1 base hbase =>
    rw [hbase]
    refine .bind (reads_expr base none) fun o => ?_
    extract_lets leave next
    have hnext (found? : Option (Ty × Ty)) : Reads ground file t.secondExpr?.toList (next found?) := by
      unfold next leave
      split
      · extract_lets leave
        split
        case h_1 key hkey =>
          rw [hkey]
          exact reads_expr_before key _ fun facts k _ => inferInstance
        case h_2 => exact .of_runs inferInstance
      · split
        case h_1 key hkey =>
          rw [hkey]
          exact (reads_expr key none).discard.before fun _ => inferInstance
        case h_2 => exact .of_runs inferInstance
    split
    · exact hnext none
    · refine .after inferInstance fun u => ?_
      extract_lets found? leave
      have hleave (u : Unit) : Reads ground file t.secondExpr?.toList (leave u) := .after inferInstance hnext
      split
      · exact .after inferInstance fun text => .after inferInstance hleave
      · exact hleave ()
  case h_2 => exact .of_runs inferInstance

instance (range : Text.ByteRange) (op : TokenKind) (o : Operand) :
    Runs (Passing ground file) (noOperator range op t o) := by
  unfold noOperator
  infer_instance

instance (inner : Tree) (o : Operand) : Runs (Passing ground file) (checkReceive t inner o) := by
  unfold checkReceive
  refine .bind inferInstance fun u => ?_
  split <;> infer_instance

theorem reads_checkUnary (t : Tree) : Reads ground file [t] (checkUnary r t) := by
  unfold checkUnary
  split
  case h_1 op inner _ hinner =>
    refine Reads.below ((reads_expr inner none).before fun o => ?_) (Tree.below_of_child? hinner)
    split
    · infer_instance
    · split
      · infer_instance
      · refine .bind inferInstance fun kind => ?_
        split
        · split <;> infer_instance
        · infer_instance
  case h_2 => exact .of_runs inferInstance

instance (side : Tree) (o other : Operand) [Told ground file side o.value] :
    Runs (Passing ground file) (convertOperand t side o other) := by
  unfold convertOperand
  infer_instance

instance (lhs rhs : Tree) (left right : Operand) [Told ground file lhs left.value]
    [Told ground file rhs right.value] :
    Runs (Passing ground file) (matchOperands t lhs rhs left right) := by
  unfold matchOperands
  split
  · split <;> infer_instance
  · infer_instance
  · infer_instance
  · infer_instance

instance (range : Text.ByteRange) (op : TokenKind) (left right : Operand) (ty : Ty) :
    Runs (Passing ground file) (folded range op left right ty) := by
  unfold folded
  split
  · refine .bind inferInstance fun kind => .bind inferInstance fun other => ?_
    dsimp only
    split
    · refine .bind inferInstance fun kind => ?_
      split <;> infer_instance
    · infer_instance
    · infer_instance
  · infer_instance

instance (op : TokenKind) (left right : Operand) :
    Runs (Passing ground file) (checkShift t op left right) := by
  unfold checkShift
  infer_instance

theorem reads_checkBinary (t : Tree) : Reads ground file [t] (checkBinary r t) := by
  refine Reads.below ?_ t.below_pair
  unfold checkBinary
  split
  case h_1 lhs rhs op hlhs hrhs _ =>
    rw [hlhs, hrhs]
    refine reads_expr_bind lhs none fun facts left _ => reads_expr_before rhs none fun others right _ => ?_
    have : Told ((ground.learn facts).learn others) file lhs left.value := Told.learn inferInstance others
    split
    · infer_instance
    · split
      · infer_instance
      · refine .bind inferInstance fun found => ?_
        split <;> infer_instance
  case h_2 lhs hlhs _ =>
    rw [hlhs]
    exact ((reads_expr lhs none).discard.before fun _ => inferInstance).sublist (List.sublist_append_left _ _)
  case h_3 => exact .of_runs inferInstance

end Expressions

section Functions

theorem reads_declareParams (idents : List (Option Token)) (types : List Ty) (kind : SymbolKind) :
    Reads ground file ((idents.filterMap id).map Tree.token) (declareParams idents types kind) := by
  unfold declareParams
  refine Reads.sublist (Reads.before (Reads.forIn (p := fun entry => entry.1.toList.map Tree.token)
    fun entry _ _ => ?_) fun _ => inferInstance) ?_
  · obtain ⟨ident?, ty⟩ := entry
    cases ident? with
    | none => exact .of_runs inferInstance
    | some ident => exact (reads_declareLocal ident kind ty 0 none).before fun _ => inferInstance
  have hsub := (sublist_fst_zip idents types).flatMap fun ident? => ident?.toList.map Tree.token
  rw [List.flatMap_map] at hsub
  rwa [List.filterMap_eq_flatMap_toList, List.map_flatMap]

theorem reads_paramIdents (list : Tree) (types : List Ty) (kind : SymbolKind) :
    Reads ground file list.nameParts (declareParams (paramIdents list) types kind) := by
  refine (reads_declareParams _ types kind).below ?_
  unfold paramIdents Tree.nameParts
  split
  · rw [List.filterMap_map, ← List.filterMap_eq_flatMap_toList]
    change Tree.Below ((list.params.filterMap fun p => p.name?.bind Tree.ident?).map Tree.token) _
    rw [← List.filterMap_filterMap]
    exact Tree.below_idents _
  · rw [List.filterMap_eq_nil_iff.mpr (by simp)]
    exact .nil []

theorem reads_statements (ts : List Tree) : Reads ground file ts (forIn ts PUnit.unit fun s _ => do
    r.statement s
    pure (ForInStep.yield PUnit.unit) : CheckM PUnit) :=
  .forIn_trees fun s _ _ => (reads_statement s).before fun _ => inferInstance

theorem reads_checkFuncLit (t : Tree) : Reads ground file [t] (checkFuncLit r t) := by
  have hbelow : Tree.Below (t.signatureParts ++ ((t.paramList?.map Tree.nameParts).getD [] ++
      (t.block?.map Tree.statements).getD [])) [t] := by
    rw [← List.append_assoc]
    refine Tree.Below.trans ((Tree.Below.trans (.of_sublist ?_) t.below_signatureNames).append
      (.trans (.getD fun _ _ => Tree.below_one _) (Tree.below_first _)))
      (.trans (.left (.append (Tree.below_first _) (Tree.below_first _)) _) ?_)
    · exact (List.sublist_append_left _ _).append_left _
    · rw [List.append_assoc]
      exact Tree.below_three fun k => by cases k <;> decide
  refine Reads.below ?_ hbelow
  unfold checkFuncLit
  refine .bind (reads_signatureOf t) fun signature => Reads.before (Reads.inScope ?_) fun _ => inferInstance
  extract_lets next
  have hnext (u : Unit) : Reads ground file ((t.block?.map Tree.statements).getD []) (next u) :=
    Reads.returning ((reads_statements _).before fun _ => inferInstance)
  split
  case h_1 list hlist =>
    rw [hlist]
    exact .bind (reads_paramIdents list _ _) hnext
  case h_2 => exact (hnext ()).sublist (List.sublist_append_right _ _)

theorem reads_checkLambda (t : Tree) (expected? : Option Ty) :
    Reads ground file [t] (checkLambda r t expected?) := by
  refine Reads.below ?_ t.below_lambda
  unfold checkLambda
  refine .after (.optionMapM fun ty _ => inferInstance) fun known? => ?_
  extract_lets names next
  have hnext (found? : Option (List Ty × Bool × List Ty)) :
      Reads ground file (t.lambdaParams ++ (t.block?.toList ++ t.expr?.toList)) (next found?) := by
    unfold next
    extract_lets params results types
    have hnames : Reads ground file t.lambdaParams (declareParams (names.map Tree.ident?) types .param) := by
      refine (reads_declareParams _ types _).below ?_
      rw [List.filterMap_map]
      exact Tree.below_idents names
    refine Reads.before (Reads.inScope (.bind hnames fun _ => Reads.returning ?_)) fun _ => ?_
    · split
      case h_1 block hblock =>
        rw [hblock]
        refine Reads.sublist ?_ (List.sublist_append_left _ _)
        exact ((reads_statements _).before fun _ => inferInstance).below (block.below_one _)
      case h_2 body hblock hbody =>
        rw [hblock, hbody]
        refine reads_expr_before body _ fun facts o _ => ?_
        split <;> infer_instance
      case h_3 => exact .of_runs inferInstance
    · split <;> infer_instance
  split
  · exact .after inferInstance hnext
  · exact .after inferInstance hnext

end Functions

end SpriteScript.Check
