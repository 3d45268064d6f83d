import CoverageMatrix.Data.Fragment
import CoverageMatrix.Text.Debugging

/-!
Reading typed values from data. A reader goes through a fragment from its beginning to its end, as
far as the text shows it, and the first thing that it cannot accept decides the error: an entry that
is unknown, repeated or ill-typed, or the place where the text breaks off. Only when a table has
come to its end are missing fields found.
-/
namespace CoverageMatrix.Decode

/-! ## Errors -/

/-- What was found where something else was expected. -/
inductive Found where
  | null
  | bool (value : Bool)
  | int (value : Int)
  | float (value : Text.Binary64)
  | text (value : String)
  | list
  | table

/-- What a found value is called in an error message. -/
def Found.describe (layout : Text.Binary64.Layout) : Found → String
  | .null => "null"
  | .bool b => "boolean `" ++ toString b ++ "`"
  | .int n => "integer `" ++ toString n ++ "`"
  | .float x => "floating point `" ++ x.text layout ++ "`"
  | .text s => "string " ++ Text.quoted s
  | .list => "sequence"
  | .table => "map"

/-- Why a fragment is not a value of the expected type. -/
inductive Error where
  | malformed (fault : Malformed)
  | unknownField (name : String) (expected : List String)
  | unknownVariant (name : String) (expected : List String)
  | missingField (name : String)
  | duplicateField (name : String)
  | invalidType (found : Found) (expected : String)
  | invalidValue (found : Found) (expected : String)
  /-- A list ends before the item at a place that a record needs. -/
  | tooFewItems (place : Nat) (record : String) (expected : Nat)
  | notAVariant

/-- A list of names as an error message offers them. -/
def offer (names : List String) : String :=
  let quoted := names.map fun n => "`" ++ n ++ "`"
  match quoted with
  | [] => ""
  | [a] => "expected " ++ a
  | [a, b] => "expected " ++ a ++ " or " ++ b
  | _ => "expected one of " ++ String.intercalate ", " quoted

/-- The wording of an error; numbers in it are written in the layout of the document's format. -/
def Error.message (layout : Text.Binary64.Layout) : Error → String
  | malformed fault => fault.message
  | unknownField name expected => "unknown field `" ++ name ++ "`, " ++ offer expected
  | unknownVariant name expected => "unknown variant `" ++ name ++ "`, " ++ offer expected
  | missingField name => "missing field `" ++ name ++ "`"
  | duplicateField name => "duplicate field `" ++ name ++ "`"
  | invalidType found expected =>
    "invalid type: " ++ found.describe layout ++ ", expected " ++ expected
  | invalidValue found expected =>
    "invalid value: " ++ found.describe layout ++ ", expected " ++ expected
  | tooFewItems place record expected =>
    "invalid length " ++ toString place ++ ", expected " ++ record ++ " with " ++ toString expected
      ++ (if expected = 1 then " element" else " elements")
  | notAVariant => "expected value"

/-- What reading a value gives. -/
abbrev Result := Except Error

def noFault (fault : Option Malformed) : Result Unit :=
  match fault with
  | none => .ok ()
  | some fault => .error (.malformed fault)

/-- The error of a fragment that is no value of the expected type. A list or table is refused at its
first character; anything else is read to its end before it is refused. -/
def mismatch (x : Fragment) (expected : String) : Error :=
  match x with
  | .null => .invalidType .null expected
  | .bool b => .invalidType (.bool b) expected
  | .int n => .invalidType (.int n) expected
  | .float v => .invalidType (.float v) expected
  | .text s => .invalidType (.text s) expected
  | .list _ _ | .broken .list _ _ => .invalidType .list expected
  | .moment _ | .table _ _ | .broken .table _ _ => .invalidType .table expected
  | .broken _ fault _ => .malformed fault

/-! ## Scalars -/

/-- Reads a text; `expected` names what it is for. -/
def textFor (expected : String) : Fragment → Result String
  | .text s => .ok s
  | x => .error (mismatch x expected)

def text : Fragment → Result String := textFor "a string"

/-- Reads a text that names a file. -/
def pathText : Fragment → Result String := textFor "path string"

/-- Reads a truth value. -/
def bool : Fragment → Result Bool
  | .bool b => .ok b
  | x => .error (mismatch x "a boolean")

/-- Reads a whole number between two bounds; `expected` names them. -/
def integer (low high : Int) (expected : String) : Fragment → Result Int
  | .int n => if low ≤ n ∧ n ≤ high then .ok n else .error (.invalidValue (.int n) expected)
  | x => .error (mismatch x expected)

/-- Reads a whole number of 64 bits without a sign. -/
def natural (expected : String) (x : Fragment) : Result Nat :=
  (integer 0 Data.maxUInt64 expected x).map Int.toNat

/-- Reads an exit code: a whole number of 32 bits with a sign. -/
def code : Fragment → Result Int :=
  integer (-2147483648) 2147483647 "i32"

/-! ## Lists, tables and choices -/

def listOf {α : Type} (item : Fragment → Result α) : Fragment → Result (List α)
  | .list xs ending => do
    let items ← xs.mapM item
    noFault ending.fault?
    pure items
  | .broken .list fault _ => .error (.malformed fault)
  | x => .error (mismatch x "a sequence")

def keyName (k : Key) : Result String :=
  k.name.mapError .malformed

def tableOf {α : Type} (value : Fragment → Result α) : Fragment → Result (List (String × α))
  | .table es ending => do
    let entries ← es.mapM fun e => do
      let name ← keyName e.1
      let v ← value e.2
      pure (name, v)
    noFault ending.fault?
    pure entries
  | .moment s => (value (.text s)).map fun v => [(Data.momentKey, v)]
  | .broken .table fault _ => .error (.malformed fault)
  | x => .error (mismatch x "a map")

def optional {α : Type} (value : Fragment → Result α) : Fragment → Result (Option α)
  | .null => .ok none
  | .broken .null fault _ => .error (.malformed fault)
  | x => (value x).map some

/-- Reads data of any kind; tables come sorted by key. -/
def any (x : Fragment) : Result Data :=
  (x.toData.map Data.sorted).mapError .malformed

/-! ## The two formats -/

/-- What the two document formats read differently. -/
structure Dialect where
  /-- Whether a record written as a list may have more items than fields. -/
  extraItems : Bool
  /-- Reads the name of a variant from a table that has it as its only key. -/
  onlyKey : {α : Type} → (String → Result α) → List (Key × Fragment) → TableEnd → Result α

namespace Dialect

/-- Reads what stands beside the name of a variant in JSON: null. -/
def unit : Fragment → Result Unit
  | .null => .ok ()
  | x => .error (mismatch x "unit")

/-- JSON: records have exactly their fields. A variant written as a key has null beside it, and the
table is read as it comes: its key first, then its value, then its end. -/
def json : Dialect where
  extraItems := false
  onlyKey named entries ending :=
    match entries, ending with
    | [], .cut => .error (.malformed .endInValue)
    | [], _ => .error (.malformed .keyNotText)
    | (k, x) :: rest, ending => do
      let v ← named (← keyName k)
      unit x
      match rest, ending with
      | [], .closed => pure v
      | [], .cut => throw (.malformed .endInObject)
      | _, _ => throw (.malformed .expectedValue)

/-- TOML: further items are passed over. A variant written as a key is alone in its table and has an
empty table or list beside it. -/
def toml : Dialect where
  extraItems := true
  onlyKey named entries _ :=
    match entries with
    | [(k, x)] => do
      let v ← named (← keyName k)
      match x with
      | .table [] _ | .list [] _ => pure v
      | _ => throw .notAVariant
    | _ => throw .notAVariant

end Dialect

/-- Reads one of a list of names. A name may also be written as the only key of a table. -/
def variant {α : Type} (dialect : Dialect) (variants : List (String × α)) : Fragment → Result α
  | .text s => named s
  | .table entries ending => dialect.onlyKey named entries ending
  | .broken .nothing fault _ | .broken .text fault _ | .broken .table fault _ =>
    .error (.malformed fault)
  | _ => .error .notAVariant
where
  named (s : String) : Result α :=
    match variants.lookup s with
    | some v => .ok v
    | none => .error (.unknownVariant s (variants.map (·.1)))

/-! ## Records -/

/-- A field of a record as the check of its entries sees it. -/
structure Field where
  name : String
  check : Fragment → Result Unit
  /-- Whether a list that is too short for the field leaves it at its default. -/
  hasDefault : Bool

def Field.of {α : Type} (name : String) (reader : Fragment → Result α) : Field :=
  ⟨name, fun x => (reader x).map fun _ => (), false⟩

/-- A field with a default, whose values a reader accepts. -/
def Field.defaulted {α : Type} (name : String) (reader : Fragment → Result α) : Field :=
  { Field.of name reader with hasDefault := true }

/-- How a record treats entries that are no fields of it. -/
inductive Unknown where
  | refused
  | ignored

/-- The entries of a record that are fields of it. -/
abbrev RecordEntries := List (String × Fragment)

/-- Checks the entries of a table in document order; `seen` are the fields that came before. -/
def checkEntries (fields : List Field) (unknown : Unknown) :
    List String → List (Key × Fragment) → Result RecordEntries
  | _, [] => .ok []
  | seen, (k, x) :: rest => do
    let name ← keyName k
    match fields.find? (·.name = name) with
    | none =>
      match unknown with
      | .refused => throw (.unknownField name (fields.map (·.name)))
      | .ignored =>
        noFault x.skip?
        checkEntries fields unknown seen rest
    | some f =>
      if name ∈ seen then throw (.duplicateField name)
      f.check x
      let known ← checkEntries fields unknown (name :: seen) rest
      pure ((name, x) :: known)

/-- Checks the items of a list as the values of fields in their order, from a place on. The list may
end early only where all fields that follow have defaults. -/
def checkItems (dialect : Dialect) (record : String) (count : Nat) :
    Nat → List Field → List Fragment → ListEnd → Result RecordEntries
  | _, [], extra, ending => do
    if !dialect.extraItems then
      if !extra.isEmpty then throw (.malformed .trailingCharacters)
      noFault ending.surplus?
    pure []
  | place, f :: fields, [], ending => do
    noFault ending.fault?
    if f.hasDefault then checkItems dialect record count (place + 1) fields [] ending
    else throw (.tooFewItems place record count)
  | place, f :: fields, x :: rest, ending => do
    f.check x
    let known ← checkItems dialect record count (place + 1) fields rest ending
    pure ((f.name, x) :: known)

/-- Finds and checks the entries of a record: those of a table, or the items of a list in the order
of the fields. -/
def record (dialect : Dialect) (name : String) (unknown : Unknown) (fields : List Field) :
    Fragment → Result RecordEntries
  | .table es ending => do
    let known ← checkEntries fields unknown [] es
    noFault ending.fault?
    pure known
  | .list xs ending => checkItems dialect name fields.length 0 fields xs ending
  | .moment s => checkEntries fields unknown [] [(Key.ofText Data.momentKey, .text s)]
  | .broken .list fault _ | .broken .table fault _ => .error (.malformed fault)
  | x => .error (mismatch x name)

/-- The value of a field, or a default when it is absent. -/
def RecordEntries.getD {α : Type} (r : RecordEntries) (field : String)
    (reader : Fragment → Result α) (default : α) : Result α :=
  match r.lookup field with
  | none => .ok default
  | some x => reader x

/-- The value of a field that has to be present. -/
def RecordEntries.get {α : Type} (r : RecordEntries) (field : String)
    (reader : Fragment → Result α) : Result α :=
  match r.lookup field with
  | some x => reader x
  | none => .error (.missingField field)

end CoverageMatrix.Decode
