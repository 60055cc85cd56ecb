import LineCalc.Binary64.Basic

set_option autoImplicit false

/- Setting values: what the text of a variable means, before it is known what it is for. -/
namespace LineCalc.Settings

/-- Maps keep their keys in ascending order, each at most once. -/
inductive Value where
  | bool (value : Bool)
  | unsigned (value : Nat)
  | signed (value : Int)
  | float (value : Binary64)
  | char (value : Char)
  | string (value : List Char)
  | sequence (items : List Value)
  | map (entries : List (String × Value))

abbrev Entries := List (String × Value)

namespace Value

/-- Sets a key, keeping the order of the others. -/
def put (key : String) (value : Value) : Entries → Entries
  | [] => [(key, value)]
  | (other, held) :: rest =>
    if other = key then (key, value) :: rest
    else if key < other then (key, value) :: (other, held) :: rest
    else (other, held) :: put key value rest

mutual

/-- The later of two values of one setting. Maps are joined, key by key. -/
def merge (earlier : Value) : Value → Value
  | .map later =>
    match earlier with
    | .map entries => .map (mergeEntries entries later)
    | _ => .map later
  | later => later

def mergeEntries (earlier : Entries) : Entries → Entries
  | [] => earlier
  | (key, value) :: rest =>
    let joined := match earlier.lookup key with
      | some held => merge held value
      | none => value
    mergeEntries (put key joined earlier) rest

end

/-- A value under a path of keys. -/
def nest (path : List String) (value : Value) : Value :=
  path.foldr (fun key inner => .map [(key, inner)]) value

end Value

end LineCalc.Settings
