/-!
# Values and tables of settings texts

The values that a TOML text describes, and how its lines build tables: a line with dotted names
makes the tables on its way, a header opens a table once, and a double header adds one table to a
list. A name is defined at most once, and a table that is complete takes no more names.
-/

namespace ScriptHost.Toml

inductive Value where
  | text (s : String)
  /-- An integer. Its number is missing where the word has the outline of an integer and is none:
  such a word is a fault only where the number is asked for. -/
  | int (number? : Option Int)
  | bool (b : Bool)
  /-- A floating-point number, a date or a time, as it is written. -/
  | scalar (written : String)
  | list (items : List Value)
  | table (fields : List (String × Value))

/-- How a table came to be. -/
inductive Form where
  /-- On the way to a header further down. -/
  | implied
  /-- On the way to a value with a dotted name. -/
  | dotted
  /-- By its own header. -/
  | declared
  deriving DecidableEq

inductive Entry where
  | value (v : Value)
  | table (form : Form) (fields : List (String × Entry))
  | tables (elements : List (List (String × Entry)))

abbrev Fields := List (String × Entry)

namespace Fields

/-- The entry of a name, with the entries before and after it. -/
def split? (name : String) : Fields → Option (Fields × Entry × Fields)
  | [] => none
  | (k, e) :: fs =>
    if k = name then some ([], e, fs)
    else (split? name fs).map fun (before, entry, after) => ((k, e) :: before, entry, after)

/-- Changes the entry of a name, or makes one. -/
def alter (name : String) (change : Option Entry → Option Entry) (fields : Fields) :
    Option Fields :=
  match fields.split? name with
  | some (before, entry, after) =>
    (change (some entry)).map fun entry => before ++ (name, entry) :: after
  | none => (change none).map fun entry => fields ++ [(name, entry)]

/-- Gives a value to a dotted name. -/
def assign : List String → Value → Fields → Option Fields
  | [], _, _ => none
  | [name], v, fields =>
    fields.alter name fun
      | none => some (.value v)
      | some _ => none
  | name :: path, v, fields =>
    fields.alter name fun
      | none => (assign path v []).map (.table .dotted)
      | some (.table .dotted inner) => (assign path v inner).map (.table .dotted)
      | some (.table .implied inner) => (assign path v inner).map (.table .implied)
      | some _ => none

/-- Changes the table that a header leads to; of a list of tables, that is the last one. -/
def within (change : Fields → Option Fields) : List String → Fields → Option Fields
  | [], fields => change fields
  | name :: path, fields =>
    fields.alter name fun
      | none => (within change path []).map (.table .implied)
      | some (.table form inner) => (within change path inner).map (.table form)
      | some (.tables elements) =>
        match elements.reverse with
        | last :: earlier =>
          (within change path last).map fun last => .tables (last :: earlier).reverse
        | [] => none
      | some (.value _) => none

/-- Opens the table of a header. -/
def declare (name : String) (fields : Fields) : Option Fields :=
  fields.alter name fun
    | none => some (.table .declared [])
    | some (.table .implied inner) => some (.table .declared inner)
    | some _ => none

/-- Adds a table to the list of a double header. -/
def append (name : String) (fields : Fields) : Option Fields :=
  fields.alter name fun
    | none => some (.tables [[]])
    | some (.tables elements) => some (.tables (elements ++ [[]]))
    | some _ => none

end Fields

mutual
def Entry.toValue : Entry → Value
  | .value v => v
  | .table _ fields => .table (toFields fields)
  | .tables elements => .list (toTables elements)

def toFields : List (String × Entry) → List (String × Value)
  | [] => []
  | (name, e) :: fs => (name, e.toValue) :: toFields fs

def toTables : List (List (String × Entry)) → List Value
  | [] => []
  | t :: ts => .table (toFields t) :: toTables ts
end

end ScriptHost.Toml
