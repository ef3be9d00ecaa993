import ResourceQuery.Keyword
import ResourceQuery.Value.Literal
import ResourceQuery.Value.Order

/-!
# Errors

Everything that can go wrong, by cause. A request that is rejected is a validation error and
carries structured messages; a look-up that matches nothing is a not-found error; a mistake in
declarations or settings is a configuration error. The rest arises when a value is used as
something that it is not.

Headlines:
* **`QueryError`**: the causes.
* **`QueryError.message`**: the one wording of each cause.
* **`ErrorKind.ancestors`**: the kinds that an error belongs to, from the narrowest to the
  widest.
* **`QueryError.report?`**: the structured form of a validation error for a response.
-/

namespace ResourceQuery

/-- Words as a sentence lists them: `a`, `a and b`, `a, b, and c`. -/
def toSentence : List String → String
  | [] => ""
  | [a] => a
  | [a, b] => a ++ " and " ++ b
  | words => ", ".intercalate words.dropLast ++ ", and " ++ words.getLastD ""

/-- What is wrong with settings. -/
inductive ConfigurationFault where
  | pageSizeBelowOne
  | maximumBelowDefault
  | keysetLimitBelowOne
  /-- The stages are not exactly the four there are, each once. -/
  | pipeline (given : Value)
  /-- A fault stated by a caller. -/
  | stated (arguments : List Value)
deriving Repr

/-- What is wrong with a declaration, or with a path in it. -/
inductive Misconfiguration where
  /-- A strategy that is neither a function nor a class. -/
  | strategyShape (name : String) (given : Value)
  | dynamicSortWithoutStrategy (stem : String)
  | noUniqueSort
  /-- A condition that is neither a yes or no, nor a function, nor the name of a check. -/
  | conditionShape (name : String) (given : Value)
  /-- A check named for a strategy that is not a class. -/
  | checkNeedsClass (check name : String)
  | missingCheck (owner check : String)
  | unreadableOrdering (given : Value)
  /-- A strategy that is made already, where an ordering is read; it is told as it is written. -/
  | strategyAsOrdering (strategy : String)
  | unknownDirection (given : Value)
  | unknownAttribute (model name : String) (path : Value)
  | notRelationship (model name : String)
  | unreadableInclude (given : Value)
  /-- A fault stated by a caller. -/
  | stated (arguments : List Value)
deriving Repr

/-- A value outside the set of values that an operation accepts. -/
inductive ValueFault where
  | direction (given : Value)
  | comparison (given : Value)
  /-- A clause of fewer than two parts. -/
  | clauseTooShort (parts : Nat)
  /-- A clause of more than two parts. -/
  | clauseTooLong
  /-- A text that is no integer. -/
  | notInteger (given : Value)
  /-- An integer with more digits than are read or written; their number is told of those that
  are read. -/
  | tooManyDigits (digits : Option Nat)
  /-- An item of a list that should be an entry of a map, but is no pair. -/
  | notPair (place length : Nat)
deriving Repr

/-- What is left out. -/
inductive Omission where
  /-- The method that a class has to define. -/
  | results (owner : String)
  /-- A relationship among several values. -/
  | membership
  /-- A comparison of a relationship by order. -/
  | comparison (operator : String)
  /-- Sorting by a relationship. -/
  | ordering
deriving Repr

/-- Why an operation failed. -/
inductive QueryError where
  /-- Any error of this library, stated by a caller. -/
  | general (arguments : List Value)
  /-- Rejected parameters, with messages by field. -/
  | validation (errors : Value)
  /-- Page parameters that cannot be read. -/
  | invalidPage (errors : Value)
  /-- Sort attributes that no rule permits. -/
  | unpermittedSort (parameters : List Value)
  | pageOutOfRange (page last : Value)
  /-- A look-up without a match, stated by a caller. -/
  | notFound (arguments : List Value)
  | recordNotFound (criteria : List (Value × Value)) (model : Value)
  | configuration (fault : ConfigurationFault)
  | misconfigured (fault : Misconfiguration)
  | invalidValue (fault : ValueFault)
  | notImplemented (omission : Omission)
  /-- A value of the wrong kind for the operation. -/
  | wrongKind
  /-- A method or attribute that a value does not have. -/
  | noAttribute
  /-- A number too large for where it has to go. -/
  | tooLarge
  /-- A comparison that the database language does not have. -/
  | invalidArgument
  /-- A comparison of several related records with a value. -/
  | invalidRequest
  /-- A parameter that the database does not hold. -/
  | unsupportedParameter
  /-- A parameter that cannot be made one of the kind of its neighbours. -/
  | unfitParameter
  /-- A text without a UTF-8 form. -/
  | unencodable (text : LooseText)
deriving Repr

namespace QueryError

/-- The error of a request for sort attributes that are not permitted. Each is reported once,
in the order of the request. -/
def unpermitted (requested : List String) : QueryError :=
  .unpermittedSort (requested.eraseDups.map .str)

/-- The error of calling a method that a value does not have. An attribute of the name is no
method either. -/
def lackOf (method : String) : Value → QueryError
  | .record attributes => if attributes.any (·.1 == method) then .wrongKind else .noAttribute
  | _ => .noAttribute

/-! ## Wording -/

/-- The message of an error that a caller states: its only argument, or all of them. -/
def statedMessage : List Value → String
  | [] => ""
  | [argument] => argument.plain
  | arguments => (Value.tuple arguments).literal

end QueryError

/-- The wording of a fault in settings. -/
def ConfigurationFault.message : ConfigurationFault → String
  | .pageSizeBelowOne => "default_page_size must be at least 1"
  | .maximumBelowDefault => "max_page_size must not be lower than default_page_size"
  | .keysetLimitBelowOne => "default_keyset_limit must be at least 1"
  | .pipeline given =>
    "pipeline must contain each of " ++ Value.commaList (Stage.all.map Stage.name) ++ " exactly once, got "
      ++ given.literal
  | .stated arguments => QueryError.statedMessage arguments

/-- The wording of a fault in a declaration. -/
def Misconfiguration.message : Misconfiguration → String
  | .strategyShape name given =>
    "Strategy for " ++ Text.quoted name ++ " must be a callable or a class, got " ++ given.literal
  | .dynamicSortWithoutStrategy stem =>
    "Dynamic sort " ++ Text.quoted stem ++ " requires a strategy"
  | .noUniqueSort => "unique_sort_attributes requires at least one attribute"
  | .conditionShape name given =>
    "Condition for " ++ Text.quoted name ++ " must be a bool, a callable or a method name, got "
      ++ given.literal
  | .checkNeedsClass check name =>
    "Condition " ++ Text.quoted check ++ " for " ++ Text.quoted name
      ++ " names a method, which requires a filter class"
  | .missingCheck owner check => owner ++ " does not define " ++ check ++ "()"
  | .unreadableOrdering given => "Cannot interpret " ++ given.literal ++ " as an ordering"
  | .strategyAsOrdering strategy => "Cannot interpret " ++ strategy ++ " as an ordering"
  | .unknownDirection given =>
    "Sort direction must be 'asc' or 'desc', got " ++ given.literal
  | .unknownAttribute model name path =>
    model ++ " has no attribute " ++ Text.quoted name ++ " (path " ++ path.literal ++ ")"
  | .notRelationship model name => model ++ "." ++ name ++ " is not a relationship"
  | .unreadableInclude given => "Cannot interpret include " ++ given.literal
  | .stated arguments => QueryError.statedMessage arguments

/-- The most that a message shows of a text that is no integer. -/
def shownLength : Nat := 200

/-- The wording of a value that an operation does not accept. -/
def ValueFault.message : ValueFault → String
  | .direction given => given.literal ++ " is not a valid SortDirection"
  | .comparison given => "Unsupported comparison operator: " ++ given.literal
  | .clauseTooShort parts =>
    "not enough values to unpack (expected 2, got " ++ toString parts ++ ")"
  | .clauseTooLong => "too many values to unpack (expected 2)"
  | .notInteger given =>
    "invalid literal for int() with base 10: "
      ++ String.ofList (given.literal.toList.take shownLength)
  | .tooManyDigits digits =>
    "Exceeds the limit (4300 digits) for integer string conversion"
      ++ (digits.map fun n => ": value has " ++ toString n ++ " digits").getD ""
      ++ "; use sys.set_int_max_str_digits() to increase the limit"
  | .notPair place length =>
    "dictionary update sequence element #" ++ toString place ++ " has length " ++ toString length
      ++ "; 2 is required"

/-- The wording of what is left out. -/
def Omission.message : Omission → String
  | .results owner => owner ++ " should implement results()"
  | .membership =>
    "in_() not yet supported for relationships.  For a simple many-to-one, use in_() against "
      ++ "the set of foreign key values."
  | .comparison operator => "<built-in function " ++ operator ++ ">"
  | .ordering => "<function asc_op>"

namespace QueryError

/-- The wording of sort attributes that are not permitted. -/
def unpermittedMessage (parameters : List Value) : String :=
  toSentence (parameters.map Value.plain) ++
    if parameters.length = 1 then " is not a permitted sort attribute"
    else " are not permitted sort attributes"

/-- The wording of a look-up that matched nothing. -/
def recordNotFoundMessage (criteria : List (Value × Value)) (model : Value) : String :=
  let target := if model.isTruthy then model.plain else "Record"
  let conditions := Value.commaList (criteria.map fun (k, v) => k.plain ++ "=" ++ v.literal)
  target ++ " with " ++ conditions ++ " not found"

/-- The structured messages of a validation error, by field. -/
def errors? : QueryError → Option Value
  | .validation errors | .invalidPage errors => some errors
  | .unpermittedSort parameters =>
    some (.ofFields [("sort", .list parameters)])
  | .pageOutOfRange page last =>
    let text := "page " ++ page.plain ++ " is out of range, last page is " ++ last.plain
    some (.ofFields [("page", .list [.str text])])
  | _ => none

/-- The message of an error. Misuse of a value has none. -/
def message : QueryError → String
  | .general arguments | .notFound arguments => statedMessage arguments
  | .validation errors | .invalidPage errors => errors.literal
  | .unpermittedSort parameters => unpermittedMessage parameters
  | .pageOutOfRange page last =>
    "Page " ++ page.plain ++ " is out of range (last page is " ++ last.plain ++ ")"
  | .recordNotFound criteria model => recordNotFoundMessage criteria model
  | .configuration fault => fault.message
  | .misconfigured fault => fault.message
  | .invalidValue fault => fault.message
  | .notImplemented omission => omission.message
  | .unencodable text => text.encodingFault
  | .wrongKind | .noAttribute | .tooLarge | .invalidArgument | .invalidRequest
  | .unsupportedParameter | .unfitParameter => ""

/-- The structured form of a validation error. -/
def report? (e : QueryError) : Option (List (String × Value)) :=
  match e with
  | .unpermittedSort parameters =>
    some [("error", .str "UNPERMITTED_SORT_PARAMETERS"), ("message", .str e.message),
      ("parameters", .list parameters)]
  | _ => e.errors?.map fun errors =>
    [("error", .str "VALIDATION_ERROR"), ("message", .str e.message), ("errors", errors)]

end QueryError

/-! ## Kinds -/

/-- The kinds of errors of this library. -/
inductive ErrorKind where
  | general | validation | unpermittedSort | invalidPage | pageOutOfRange
  | notFound | recordNotFound | configuration | misconfigured
deriving Repr, DecidableEq

namespace ErrorKind

/-- The next wider kind. -/
def parent? : ErrorKind → Option ErrorKind
  | .general => none
  | .validation | .notFound | .configuration => some .general
  | .unpermittedSort | .invalidPage | .pageOutOfRange => some .validation
  | .recordNotFound => some .notFound
  | .misconfigured => some .configuration

/-- The kinds from the given one up to the widest. None is more than two steps away. -/
def ancestors (k : ErrorKind) : List ErrorKind :=
  let first := k.parent?
  k :: first.toList ++ (first.bind parent?).toList

theorem general_mem_ancestors (k : ErrorKind) : ErrorKind.general ∈ k.ancestors := by
  cases k <;> decide

end ErrorKind

/-- The kind of an error, nothing for the misuse of a value. -/
def QueryError.kind? : QueryError → Option ErrorKind
  | .general _ => some .general
  | .validation _ => some .validation
  | .invalidPage _ => some .invalidPage
  | .unpermittedSort _ => some .unpermittedSort
  | .pageOutOfRange .. => some .pageOutOfRange
  | .notFound _ => some .notFound
  | .recordNotFound .. => some .recordNotFound
  | .configuration _ => some .configuration
  | .misconfigured _ => some .misconfigured
  | _ => none

/-! ## Stating an error -/

/-- The structured messages of a validation error from what a caller gives: a text belongs to
no field, and nothing given means no messages. -/
def validationErrors : Value → Value
  | .str s => .ofFields [("__root__", .list [.str s])]
  | .null => .map []
  | errors => errors

/-- Can a sentence list the values? Of three or more, all but the last have to be texts. -/
def isListable (words : List Value) : Bool :=
  words.length < 3 || words.dropLast.all fun word => word.spelling?.isSome

/-- The sentence that lists values. A single one stands for itself. -/
def sentenceOf (words : List Value) : Except QueryError Value :=
  match words with
  | [word] => .ok word
  | words =>
    if isListable words then .ok (.str (toSentence (words.map Value.plain)))
    else .error .wrongKind

/-- The sort attributes that a caller lists, each once. -/
def statedParameters (given : Value) : Except QueryError (List Value) :=
  match given.items? with
  | none => .error .wrongKind
  | some items =>
    let parameters := Value.distinct items
    if Value.allHashable items && isListable parameters then .ok parameters else .error .wrongKind

/-- A look-up without a match as a caller states it. Criteria that are no map have no entries to
show. -/
def statedLookup (model : Value) : Value → Except QueryError QueryError
  | .map criteria => .ok (.recordNotFound criteria model)
  | given => .error (.lackOf "items" given)

/-- An error of a kind from the arguments that a caller gives, if they fit. -/
def ErrorKind.state (k : ErrorKind) (arguments : List Value) : Except QueryError QueryError :=
  match k, arguments with
  | .general, _ => .ok (.general arguments)
  | .notFound, _ => .ok (.notFound arguments)
  | .configuration, _ => .ok (.configuration (.stated arguments))
  | .misconfigured, _ => .ok (.misconfigured (.stated arguments))
  | .validation, [] => .ok (.validation (.map []))
  | .validation, [errors] => .ok (.validation (validationErrors errors))
  | .invalidPage, [] => .ok (.invalidPage (.map []))
  | .invalidPage, [errors] => .ok (.invalidPage (validationErrors errors))
  | .unpermittedSort, [given] => (statedParameters given).map .unpermittedSort
  | .pageOutOfRange, [page, last] => .ok (.pageOutOfRange page last)
  | .recordNotFound, [criteria] => statedLookup .null criteria
  | .recordNotFound, [criteria, model] => statedLookup model criteria
  | _, _ => .error .wrongKind

end ResourceQuery
