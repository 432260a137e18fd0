import SpriteScript.Diagnostic
import SpriteScript.Syntax.Parser.Cursor
import SpriteScript.Resource.Id

-- Everything that can be wrong with a program, with its code and its wording.
namespace SpriteScript

-- Texts of expressions and types are those of the source and of `Model.display`; a
-- description is an expression with what it is in parentheses behind it.
inductive Problem where
  -- the file
  | syntaxError (fault : Syntax.Fault)
  | packageMismatch (found expected : String)
  -- names
  | undefined (name : String)
  | undefinedIn (package name : String)
  | noMember (base name type : String)
  | unknownField (name type : String)
  | redeclared (name : String)
  | duplicateField (name : String)
  | duplicateMethod (name : String)
  | unknownImport (path : String)
  -- types
  | undefinedType (name : String)
  | undefinedTypeIn (package name : String)
  | notType (text : String)
  | badLiteralType (type : String)
  | recursiveType (name : String)
  | initCycle (name : String)
  | notConstant (text : String)
  | cannotUse (description type context : String)
  | cannotReuse (type existing : String)
  | cannotRangeInto (text type target : String)
  | notBoolean (context description : String)
  | badCase (text tag type tagType : String)
  | mismatched (text left right : String)
  | cannotConvert (description type : String)
  -- calls
  | noOverload (name arguments : String)
  | tooFewArguments (name : String)
  | tooManyArguments (name : String)
  | packageCalled (name : String)
  | notFunction (description : String)
  | conversionWithout (type : String)
  | conversionOfMany (type : String)
  | lenCount (count : Nat)
  | lenOf (description : String)
  | appendWithout
  | appendTo (description : String)
  -- operations
  | notNumeric (text description : String)
  | sendTo (description : String)
  | receiveFrom (description : String)
  | builtinUncalled (text : String)
  | notUsed (description : String)
  | noCompound (operator text type : String)
  | noOperator (operator description : String)
  | cannotRange (description : String)
  | cannotIndex (description : String)
  | blankValue
  | intOverflow (text : String)
  | tooManyValues (type : String)
  | missingKey
  | badShift
  | divisionByZero
  | severalValues (text type : String)
  | noValue (text : String)
  | typeAsValue (text : String)
  | packageAsValue (text : String)
  -- assignments
  | constWithoutValue
  | noTypeNorValue
  | countMismatch (names values : Nat)
  | cannotAssign (description : String)
  | notName (text : String)
  | nothingNew
  | tooManyReturned
  | tooFewReturned
  | tooManyRangeVariables
  | nilWithoutType
  -- resources
  | resourceMissing (kind : ResourceKind) (name : String)
  | resourceUnnamed (kind : ResourceKind)
  | assets (message : String)
  | rootNotConstant
  | misplacedField (kind : ResourceKind) (name entry : String)
deriving DecidableEq, Repr, Inhabited

namespace Problem

def severity : Problem → Severity
  | misplacedField .. => .warning
  | _ => .error

def code : Problem → String
  | syntaxError _ => "E0001"
  | packageMismatch .. => "E0002"
  | undefined _ | undefinedIn .. | noMember .. | unknownField .. => "E0020"
  | notConstant _ | cannotUse .. | cannotReuse .. | cannotRangeInto .. | notBoolean .. | badCase ..
  | mismatched .. | cannotConvert .. => "E0021"
  | redeclared _ | duplicateField _ | duplicateMethod _ => "E0022"
  | noOverload .. | tooFewArguments _ | tooManyArguments _ | packageCalled _ | notFunction _
  | conversionWithout _ | conversionOfMany _ | lenCount _ | lenOf _ | appendWithout
  | appendTo _ => "E0023"
  | notNumeric .. | sendTo _ | receiveFrom _ | builtinUncalled _ | notUsed _ | noCompound ..
  | noOperator .. | cannotRange _ | cannotIndex _ | blankValue | intOverflow _ | tooManyValues _
  | missingKey | badShift | divisionByZero | severalValues .. | noValue _ | typeAsValue _
  | packageAsValue _ => "E0024"
  | undefinedType _ | undefinedTypeIn .. | notType _ | badLiteralType _ => "E0025"
  | recursiveType _ | initCycle _ => "E0026"
  | unknownImport _ => "E0027"
  | constWithoutValue | noTypeNorValue | countMismatch .. | cannotAssign _ | notName _ | nothingNew
  | tooManyReturned | tooFewReturned | tooManyRangeVariables | nilWithoutType => "E0028"
  | resourceMissing .. => "E0060"
  | resourceUnnamed _ => "E0061"
  | assets _ => "E0062"
  | rootNotConstant => "E0063"
  | misplacedField .. => "W0001"

def plural (count : Nat) : String := if count == 1 then "" else "s"

def message : Problem → String
  | syntaxError fault => fault.message
  | packageMismatch found expected => "package " ++ found ++ "; expected package " ++ expected
  | undefined name | undefinedType name => "undefined: " ++ name
  | undefinedIn package name | undefinedTypeIn package name => "undefined: " ++ package ++ "." ++ name
  | noMember base name type =>
      base ++ "." ++ name ++ " undefined (type " ++ type ++ " has no field or method " ++ name ++ ")"
  | unknownField name type => "unknown field " ++ name ++ " in struct literal of type " ++ type
  | redeclared name => name ++ " redeclared in this block"
  | duplicateField name => "duplicate field " ++ name
  | duplicateMethod name => "method " ++ name ++ " already declared"
  | unknownImport path => "package " ++ path ++ " is not in std"
  | notType text => text ++ " is not a type"
  | badLiteralType type => "invalid composite literal type " ++ type
  | recursiveType name => "invalid recursive type " ++ name
  | initCycle name => "initialization cycle: " ++ name ++ " refers to itself"
  | notConstant text => text ++ " is not constant"
  | cannotUse description type context =>
      "cannot use " ++ description ++ " as " ++ type ++ " value in " ++ context
  | cannotReuse type existing =>
      "cannot use value of type " ++ type ++ " as " ++ existing ++ " value in assignment"
  | cannotRangeInto text type target =>
      "cannot use " ++ text ++ " (value of type " ++ type ++ ") as " ++ target ++ " value in range"
  | notBoolean context description =>
      "non-boolean condition in " ++ context ++ " statement: " ++ description
  | badCase text tag type tagType =>
      "invalid case " ++ text ++ " in switch on " ++ tag ++ " (mismatched types " ++ type ++ " and " ++
        tagType ++ ")"
  | mismatched text left right =>
      "invalid operation: " ++ text ++ " (mismatched types " ++ left ++ " and " ++ right ++ ")"
  | cannotConvert description type => "cannot convert " ++ description ++ " to type " ++ type
  | noOverload name arguments => "no overload of " ++ name ++ " matches arguments (" ++ arguments ++ ")"
  | tooFewArguments name => "not enough arguments in call to " ++ name
  | tooManyArguments name => "too many arguments in call to " ++ name
  | packageCalled name | packageAsValue name => "use of package " ++ name ++ " without selector"
  | notFunction description => "invalid operation: cannot call non-function " ++ description
  | conversionWithout type => "missing argument in conversion to " ++ type
  | conversionOfMany type => "too many arguments in conversion to " ++ type
  | lenCount count =>
      (if count == 0 then "not enough" else "too many") ++ " arguments for len (expected 1, found " ++
        toString count ++ ")"
  | lenOf description => "invalid argument: " ++ description ++ " for built-in len"
  | appendWithout => "not enough arguments for append"
  | appendTo description => "invalid argument: " ++ description ++ " is not a slice"
  | notNumeric text description =>
      "invalid operation: " ++ text ++ " (non-numeric " ++ description ++ ")"
  | sendTo description => "invalid operation: cannot send to non-channel " ++ description
  | receiveFrom description => "invalid operation: cannot receive from non-channel " ++ description
  | builtinUncalled text => text ++ " (built-in function) must be called"
  | notUsed description => description ++ " is not used"
  | noCompound operator text type =>
      "invalid operation: operator " ++ operator ++ " not defined on " ++ text ++ " (variable of type " ++
        type ++ ")"
  | noOperator operator description =>
      "invalid operation: operator " ++ operator ++ " not defined on " ++ description
  | cannotRange description => "cannot range over " ++ description
  | cannotIndex description => "invalid operation: cannot index " ++ description
  | blankValue => "cannot use _ as value"
  | intOverflow text => "integer constant overflow: " ++ text
  | tooManyValues type => "too many values in struct literal of type " ++ type
  | missingKey => "missing key in map literal"
  | badShift => "invalid operation: shift of non-integer operand"
  | divisionByZero => "invalid operation: division by zero"
  | severalValues text type =>
      "multiple-value " ++ text ++ " (value of type " ++ type ++ ") in single-value context"
  | noValue text => text ++ " (no value) used as value"
  | typeAsValue text => text ++ " (type) is not an expression"
  | constWithoutValue => "missing init expr for const declaration"
  | noTypeNorValue => "missing type or init expr"
  | countMismatch names values =>
      "assignment mismatch: " ++ toString names ++ " variable" ++ plural names ++ " but " ++
        toString values ++ " value" ++ plural values
  | cannotAssign description => "cannot assign to " ++ description
  | notName text => "non-name " ++ text ++ " on left side of :="
  | nothingNew => "no new variables on left side of :="
  | tooManyReturned => "too many return values"
  | tooFewReturned => "not enough return values"
  | tooManyRangeVariables => "range clause permits at most two iteration variables"
  | nilWithoutType => "use of untyped nil in assignment"
  | resourceMissing kind name => kind.word ++ " resource \"" ++ name ++ "\" not found"
  | resourceUnnamed kind => kind.word ++ " resource name cannot be empty"
  | assets message => message
  | rootNotConstant => "asset root must be a constant string"
  | misplacedField kind name entry =>
      kind.word ++ " " ++ name ++
        " is not auto-bound: resource fields must be declared in the first var block of " ++ entry

def diagnostic (p : Problem) (file : FileId) (range : Text.ByteRange) : Diagnostic :=
  ⟨file, range, p.severity, some p.code, p.message⟩

end Problem

end SpriteScript
