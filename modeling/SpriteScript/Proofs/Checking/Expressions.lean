import SpriteScript.Check.Calls
import SpriteScript.Proofs.Checking.Values

-- Expressions and calls.
namespace SpriteScript.Check

-- The instances for the parts of a long function are found in one search.
set_option synthInstance.maxSize 1000

variable {w : Stage} {file : FileId} {r : Rules} [KeepsRules w r]

section Literals

instance (value : Tree) (ty? : Option Ty) [Sits w file value] :
    Keeps w file (checkElement r value ty?) := by
  unfold checkElement
  refine .bind inferInstance fun o => ?_
  split <;> infer_instance

instance (fields : List Field) (ty : Ty) (key : Tree) [Sits w file key] :
    Stays w file (keyedField? fields ty key) := by
  unfold keyedField?
  split
  · infer_instance
  · split
    case h_1 ident hident =>
      have : FreeWord w file ident := .of_ident? hident
      split <;> infer_instance
    case h_2 => infer_instance

theorem keeps_keyedField? {fields : List Field} {ty : Ty} {key : Tree} [Sits w file key]
    (hfields : Spelled w fields) : Keeps w file (keyedField? fields ty key) := by
  unfold keyedField?
  split
  · infer_instance
  · split
    case h_1 ident hident =>
      have : FreeWord w file ident := .of_ident? hident
      split
      case h_1 field hfield =>
        have hname : field.name = ident.text := beq_iff_eq.mp (List.find?_some hfield :)
        have : Names w field.symbol ident.text :=
          hname ▸ hfields field (List.mem_of_find?_eq_some hfield)
        infer_instance
      case h_2 => infer_instance
    case h_2 => infer_instance

theorem runs_checkStructElement {R : State → State → Prop} [IsPreorder State R] {fields : List Field}
    {ty : Ty} {position : Nat} {e : Tree} [Sits w file e]
    (hkey : ∀ key, Sits w file key → Runs R (keyedField? fields ty key))
    (hkeeps : ∀ {α : Type} (a : CheckM α), Keeps w file a → Runs R a) :
    Runs R (checkStructElement r fields ty position e) := by
  have {α : Type} (a : CheckM α) [h : Keeps w file a] : Runs R a := hkeeps a h
  unfold checkStructElement
  split
  · extract_lets next
    have hnext (fieldType? : Option Ty) : Runs R (next fieldType?) := by
      unfold next
      split
      case h_1 value hvalue =>
        have : Sits w file value := .of_getElem? hvalue
        infer_instance
      case h_2 => infer_instance
    split
    case h_1 key hk =>
      have := hkey key (.of_childWith? hk)
      infer_instance
    case h_2 => infer_instance
  · infer_instance

instance (key value : Ty) (e : Tree) [Sits w file e] :
    Keeps w file (checkPair r key value e) := by
  unfold checkPair
  split
  · extract_lets next
    have hnext (u : Unit) : Keeps w file (next u) := by
      unfold next
      split
      case h_1 v hv =>
        have : Sits w file v := .of_getElem? hv
        infer_instance
      case h_2 => infer_instance
    split
    case h_1 k hk =>
      have : Sits w file k := .of_childWith? hk
      exact .bind inferInstance hnext
    case h_2 => exact hnext ()
  · infer_instance

instance (t : Tree) (ty : Ty) [Sits w file t] :
    Keeps w file (checkBody r t.literalBody? ty) := by
  unfold checkBody
  split
  case h_1 body hbody =>
    have : Sits w file body := .of_childWith? hbody
    have helements : SitAll w file body.elements := inferInstance
    dsimp only
    refine .bind inferInstance fun u => ?_
    split
    · have helement (e : Tree × Nat) (he : e ∈ body.elements.zipIdx) : Sits w file e.1 :=
        helements.sits _ (List.fst_mem_of_mem_zipIdx he)
      refine Keeps.bind_find inferInstance finds_namedType (fun named => ?_) fun named hfields => ?_
      all_goals
        split
        · refine .bind (.forIn fun e he _ => ?_) fun _ => inferInstance
          have := helement e he
          refine .bind (runs_checkStructElement (fun key (_ : Sits w file key) => ?_) ?_) fun _ =>
            inferInstance
          · first | infer_instance | exact keeps_keyedField? hfields
          · intros
            infer_instance
        · infer_instance
    · refine .bind (.forIn fun e he _ => ?_) fun _ => inferInstance
      have : Sits w file e := helements.sits _ he
      infer_instance
    · refine .bind (.forIn fun e he _ => ?_) fun _ => inferInstance
      have : Sits w file e := helements.sits _ he
      infer_instance
    · refine .bind (.forIn fun e he _ => ?_) fun _ => inferInstance
      have : Sits w file e := helements.sits _ he
      split
      · split
        case h_1 value hvalue =>
          have : Sits w file value := .of_getElem? hvalue
          infer_instance
        case h_2 => infer_instance
      · infer_instance
    · infer_instance
  case h_2 => infer_instance

instance (t : Tree) [Sits w file t] : Keeps w file (literalType r t) := by
  unfold literalType
  split
  · infer_instance
  · refine .bind inferInstance fun o => ?_
    split <;> infer_instance

instance (t : Tree) (expected? : Option Ty) [Sits w file t] :
    Keeps w file (checkComposite r t expected?) := by
  unfold checkComposite
  extract_lets next
  have hnext (ty : Ty) : Keeps w file (next ty) := by
    unfold next
    infer_instance
  split
  case h_1 named hnamed =>
    obtain ⟨hhead, -⟩ := Option.filter_eq_some_iff.mp hnamed
    have : Sits w file named := .child (List.mem_filter.mp (List.mem_of_head? hhead)).1
    infer_instance
  case h_2 => infer_instance

instance (t : Tree) (expected? : Option Ty) [Sits w file t] :
    Keeps w file (checkList r t expected?) := by
  have helements : SitAll w file t.exprs := inferInstance
  unfold checkList
  refine .bind (.optionMapM fun ty _ => inferInstance) fun known? => ?_
  split
  · refine .bind (.forIn fun e he _ => ?_) fun _ => inferInstance
    have : Sits w file e := helements.sits _ he
    infer_instance
  · refine .bind (.foldlM fun e he elem? => ?_) fun _ => inferInstance
    have : Sits w file e := helements.sits _ he
    refine .bind inferInstance fun o => ?_
    split <;> infer_instance

instance (t : Tree) [Sits w file t] : Keeps w file (checkTextMap r t) := by
  have helements : SitAll w file ((t.literalBody?.map Tree.elements).getD []) :=
    .getD fun body hbody => by
      have : Sits w file body := .of_childWith? hbody
      infer_instance
  unfold checkTextMap
  refine .bind (.forIn fun e he _ => ?_) fun _ => inferInstance
  have : Sits w file e := helements.sits e (List.mem_filter.mp he).1
  extract_lets next
  have hnext (u : Unit) : Keeps w file (next u) := by
    unfold next
    split
    case h_1 value hvalue =>
      have : Sits w file value := .of_getElem? hvalue
      infer_instance
    case h_2 => infer_instance
  split
  case h_1 key hkey =>
    have : Sits w file key := .of_childWith? hkey
    split
    · exact .bind inferInstance hnext
    · exact .bind inferInstance fun o => .bind inferInstance hnext
  case h_2 => exact hnext ()

instance (t : Tree) (expected? : Option Ty) [Sits w file t] :
    Keeps w file (checkMap r t expected?) := by
  unfold checkMap
  split
  · extract_lets next
    have hnext (fits : Bool) : Keeps w file (next fits) := by
      unfold next
      infer_instance
    refine .bind inferInstance fun u => ?_
    split <;> infer_instance
  · infer_instance

end Literals

section Expressions

variable {t : Tree} [Sits w file t]

instance (id : SymbolId) : Keeps w file (symbolOperand id) := by
  unfold symbolOperand
  refine .bind inferInstance fun s => ?_
  infer_instance

instance (ident : Token) (id : SymbolId) : Stays w file (useSymbol r ident id) := by
  unfold useSymbol
  infer_instance

instance (ident : Token) (id : SymbolId) [FreeWord w file ident] [Names w id ident.text] :
    Keeps w file (useSymbol r ident id) := by
  unfold useSymbol
  infer_instance

instance : Keeps w file (checkName r t) := by
  unfold checkName
  split
  case h_1 ident hident =>
    have hword : FreeWord w file ident := .of_ident? hident
    split
    · infer_instance
    · refine Keeps.bind_find inferInstance (finds_lookup? hword.text_ne_empty) (fun found => ?_)
        fun found hfound => ?_
      · split <;> infer_instance
      · split
        case h_1 id =>
          have := hfound id rfl
          infer_instance
        case h_2 => infer_instance
  case h_2 => infer_instance

instance : Keeps w file (checkLiteral t) := by
  unfold checkLiteral
  split
  case h_1 token _ htoken =>
    have : Free w file token := .of_find? htoken
    split <;> infer_instance
  case h_2 => infer_instance
  case h_3 => infer_instance
  case h_4 => infer_instance

instance {R : State → State → Prop} [IsPreorder State R] : Runs R (namedPackage? t) := by
  unfold namedPackage?
  split
  · infer_instance
  · split
    · refine .bind inferInstance fun found => ?_
      split <;> infer_instance
    · infer_instance

-- The name of a package is where it is written.
theorem finds_namedPackage? : Finds w file (namedPackage? t) fun found =>
    ∀ ident id s, found = some (ident, id, s) → FreeWord w file ident ∧ Names w id ident.text := by
  have hnone : Yields w file (pure none : CheckM (Option (Token × SymbolId × Symbol))) fun found =>
      ∀ ident id s, found = some (ident, id, s) → FreeWord w file ident ∧ Names w id ident.text :=
    .pure (by simp)
  unfold namedPackage?
  split
  · exact hnone.finds
  · split
    case h_1 ident hident =>
      have hword : FreeWord w file ident := .of_ident? hident
      refine (Yields.bind ⟨inferInstance, finds_lookup? hword.text_ne_empty⟩ (fun found => ?_)
        fun found hfound => ?_).finds
      · split <;> infer_instance
      · split
        case h_1 id =>
          have hsymbol : Keeps w file (symbol id) := inferInstance
          refine Yields.bind hsymbol.yields (fun s => ?_) fun s _ => ?_
          · infer_instance
          refine Yields.pure fun ident' id' s' heq => ?_
          split at heq
          · cases heq
            exact ⟨hword, hfound id rfl⟩
          · cases heq
        case h_2 => exact hnone
    case h_2 => exact hnone.finds

instance : Keeps w file (checkSelector r t) := by
  unfold checkSelector
  split
  case h_1 base hbase =>
    have : Sits w file base := .of_childWith? hbase
    split
    case h_1 name hname =>
      have hword : FreeWord w file name := .of_ident? hname
      refine Keeps.bind_find inferInstance finds_namedPackage? (fun found => ?_) fun found hfound => ?_
      · split
        · refine .bind inferInstance fun _ => .bind inferInstance fun m => ?_
          split <;> infer_instance
        · refine .bind inferInstance fun o => ?_
          split
          · infer_instance
          · refine .bind inferInstance fun m => ?_
            split <;> infer_instance
      · split
        case h_1 ident id package =>
          obtain ⟨_, _⟩ := hfound ident id package rfl
          refine .bind inferInstance fun _ => Keeps.bind_find inferInstance finds_model (fun m => ?_)
            fun m hm => ?_
          · split <;> infer_instance
          · split
            case h_1 entry hentry =>
              obtain ⟨scope, -, hbound⟩ := Option.bind_eq_some_iff.mp hentry
              have := hm.1.names_of_bound? hbound
              infer_instance
            case h_2 => infer_instance
        case h_2 =>
          refine .bind inferInstance fun o => ?_
          split
          · infer_instance
          · refine Keeps.bind_find inferInstance finds_model (fun m => ?_) fun m hm => ?_
            · split <;> infer_instance
            · split
              case h_1 id hmember =>
                have := Model.names_of_memberOf? hm.2 hmember hword.text_ne_empty
                infer_instance
              case h_2 => infer_instance
    case h_2 => infer_instance
  case h_2 => infer_instance

instance : Keeps w file (checkIndex r t) := by
  unfold checkIndex
  split
  case h_1 base hbase =>
    have : Sits w file base := .of_childWith? hbase
    refine .bind inferInstance fun o => ?_
    extract_lets leave next
    have hnext (found? : Option (Ty × Ty)) : Keeps w file (next found?) := by
      unfold next leave
      split
      · extract_lets leave
        split
        case h_1 key hkey =>
          have : Sits w file key := .of_getElem? hkey
          infer_instance
        case h_2 => infer_instance
      · split
        case h_1 key hkey =>
          have : Sits w file key := .of_getElem? hkey
          infer_instance
        case h_2 => infer_instance
    split <;> infer_instance
  case h_2 => infer_instance

instance (range : Text.ByteRange) (op : TokenKind) (side : Tree) (o : Operand)
    [InText w file range] : Keeps w file (noOperator range op side o) := by
  unfold noOperator
  infer_instance

instance (inner : Tree) (o : Operand) : Keeps w file (checkReceive t inner o) := by
  unfold checkReceive
  refine .bind inferInstance fun u => ?_
  split <;> infer_instance

instance : Keeps w file (checkUnary r t) := by
  unfold checkUnary
  split
  case h_1 op inner _ hinner =>
    have : Sits w file inner := .of_childWith? hinner
    refine .bind inferInstance fun o => ?_
    split
    · infer_instance
    · split
      · infer_instance
      · refine .bind inferInstance fun kind => ?_
        split
        · split <;> infer_instance
        · infer_instance
  case h_2 => infer_instance

instance (side : Tree) (o other : Operand) : Keeps w file (convertOperand t side o other) := by
  unfold convertOperand
  infer_instance

instance (lhs rhs : Tree) (left right : Operand) :
    Keeps w file (matchOperands t lhs rhs left right) := by
  unfold matchOperands
  split
  · split <;> infer_instance
  · infer_instance
  · infer_instance
  · infer_instance

instance (range : Text.ByteRange) (op : TokenKind) (left right : Operand) (ty : Ty)
    [InText w file range] : Keeps w file (folded range op left right ty) := by
  unfold folded
  split
  · refine .bind inferInstance fun kind => .bind inferInstance fun other => ?_
    dsimp only
    split
    · refine .bind inferInstance fun kind => ?_
      split <;> infer_instance
    · infer_instance
    · infer_instance
  · infer_instance

instance (op : TokenKind) (left right : Operand) : Keeps w file (checkShift t op left right) := by
  unfold checkShift
  infer_instance

instance : Keeps w file (checkBinary r t) := by
  unfold checkBinary
  split
  case h_1 lhs rhs op hlhs hrhs _ =>
    have : Sits w file lhs := .of_childWith? hlhs
    have : Sits w file rhs := .of_getElem? hrhs
    refine .bind inferInstance fun left => .bind inferInstance fun right => ?_
    split
    · infer_instance
    · split
      · infer_instance
      · refine .bind inferInstance fun found => ?_
        split <;> infer_instance
  case h_2 lhs hlhs _ =>
    have : Sits w file lhs := .of_childWith? hlhs
    infer_instance
  case h_3 => infer_instance

end Expressions

section Functions

variable {t : Tree} [Sits w file t]

theorem keeps_declareParams {idents : List (Option Token)} {types : List Ty} {kind : SymbolKind}
    (h : ∀ ident, some ident ∈ idents → FreeWord w file ident) :
    Keeps w file (declareParams idents types kind) := by
  unfold declareParams
  refine .bind (.forIn fun entry hentry _ => ?_) fun _ => inferInstance
  split
  split
  case h_1 ident =>
    have := h ident (List.of_mem_zip hentry).1
    infer_instance
  case h_2 => infer_instance

theorem keeps_statements {ts : List Tree} (h : SitAll w file ts) :
    Keeps w file (forIn ts PUnit.unit fun s _ => do
      r.statement s
      pure (ForInStep.yield PUnit.unit) : CheckM PUnit) := by
  refine .forIn fun s hs _ => ?_
  have : Sits w file s := h.sits s hs
  infer_instance

instance : Keeps w file (checkFuncLit r t) := by
  unfold checkFuncLit
  refine .bind inferInstance fun signature =>
    .bind (KeepsRules.inScope (r := r) fun w _ _ => ?_) fun _ => inferInstance
  have hstatements : SitAll w file ((t.block?.map Tree.statements).getD []) :=
    .getD fun block hblock => by
      have : Sits w file block := .of_childWith? hblock
      infer_instance
  have := keeps_statements (r := r) hstatements
  extract_lets next
  have hnext (u : Unit) : Keeps w file (next u) := Keeps.returning inferInstance
  split
  case h_1 list hlist =>
    have : Sits w file list := .of_childWith? hlist
    exact .bind (keeps_declareParams fun ident => freeWord_of_paramIdents) hnext
  case h_2 => exact hnext ()

theorem freeWord_of_lambdaParams {ident : Token} (h : some ident ∈ t.lambdaParams.map Tree.ident?) :
    FreeWord w file ident := by
  obtain ⟨name, hname, hident⟩ := List.mem_map.mp h
  have : Sits w file name := .of_mem hname
  exact .of_ident? hident

instance (expected? : Option Ty) : Keeps w file (checkLambda r t expected?) := by
  unfold checkLambda
  refine .bind (.optionMapM fun ty _ => inferInstance) fun known? => ?_
  extract_lets names next
  have hnext (found? : Option (List Ty × Bool × List Ty)) : Keeps w file (next found?) := by
    unfold next
    extract_lets params results types
    refine .bind (KeepsRules.inScope (r := r) fun w _ _ => ?_) fun _ => ?_
    · refine .bind (keeps_declareParams fun ident => freeWord_of_lambdaParams) fun _ => Keeps.returning ?_
      split
      case h_1 block hblock =>
        have : Sits w file block := .of_childWith? hblock
        exact .bind (keeps_statements inferInstance) fun _ => inferInstance
      case h_2 body _ hbody =>
        have : Sits w file body := .of_childWith? hbody
        refine .bind inferInstance fun o => ?_
        split <;> infer_instance
      case h_3 => infer_instance
    · split <;> infer_instance
  split <;> infer_instance

end Functions

end SpriteScript.Check
