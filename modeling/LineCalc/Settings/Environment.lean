import LineCalc.Settings.Reading

set_option autoImplicit false

/- Environment variables as settings: names become paths, and what they set is joined. -/
namespace LineCalc.Settings

structure Assignment where
  name : String
  text : String
  deriving DecidableEq, Repr

abbrev Environment := List Assignment

namespace Assignment

/-- Names of settings start so, in letters of either case. -/
def mark : List Char := ['a', 'p', 'p', '_']

/-- The first underscore after the mark separates a section from the name in it. -/
def sectioned : List Char → List Char
  | [] => []
  | c :: rest => if c = '_' then '.' :: rest else c :: sectioned rest

/-- The parts between dots, of which there is at least one. -/
def splitDots : List Char → List Char × List (List Char)
  | [] => ([], [])
  | c :: rest =>
    let (first, others) := splitDots rest
    if c = '.' then ([], first :: others) else (c :: first, others)

/-- Where an assignment belongs among the settings, if anywhere. The reader of names is assumed to
take them as they stand, but for the case of their letters: white space around a name is not
trimmed, and no variable is taken to have such a name. -/
def path? (assignment : Assignment) : Option (List String) :=
  let name := assignment.name.toList.map Char.toLower
  if mark.isPrefixOf name then
    let (first, others) := splitDots (sectioned (name.drop mark.length))
    if (first :: others).any List.isEmpty then none
    else some ((first :: others).map String.ofList)
  else none

end Assignment

/-- All that an environment sets; of two assignments to one setting the later one counts. An
assignment whose text means nothing is in the way of all others. -/
def Environment.value (environment : Environment) : Except Assignment Value :=
  environment.foldlM (fun value assignment =>
    match assignment.path? with
    | some path =>
      match Value.ofText? assignment.text.toList with
      | some assigned => .ok (Value.merge value (Value.nest path assigned))
      | none => .error assignment
    | none => .ok value) (.map [])

end LineCalc.Settings
