import TraceGraph.CommandLine

/-!
# The words of a command line

A command line names one source file and any number of options, in any order.
An option with a value has it in the next word or after an equals sign, and
further equals signs there do not belong to the value.
`Request.ofWords?` is the request that they make together.
-/

namespace TraceGraph

/-- The options that take a value. -/
def valueOptions : List String :=
  ["--args", "-a", "--output", "-o", "--format", "-f", "--first-id", "--config", "-c"]

/-- An option and its value as two words, where one word holds both. -/
def splitWord (word : String) : List String :=
  let name := String.ofList (word.toList.takeWhile (· != '='))
  let rest := word.toList.dropWhile (· != '=')
  if rest.isEmpty || !valueOptions.contains name then [word]
  else [name, String.ofList (rest.dropWhile (· == '='))]

/-- The number of a node as an option gives it: digits, perhaps after a plus
sign. -/
def nodeNumber? (text : String) : Option Nat :=
  let digits := match text.toList with
    | '+' :: rest => rest
    | all => all
  let n := Number.ofDigits digits
  if digits.all Char.isDigit && !digits.isEmpty && n < Settings.idLimit then some n else none

namespace Request

/-- Gives an option a value. -/
def setOption? (request : Request) (name value : String) : Option Request :=
  match name with
  | "--args" | "-a" => some { request with args := some value }
  | "--output" | "-o" => some { request with output := some value }
  | "--format" | "-f" => some { request with format := value }
  | "--first-id" => (nodeNumber? value).map fun n => { request with firstId := some n }
  | "--config" | "-c" => some { request with config := some value }
  | _ => none

/-- Adds words to a request.  `named` tells whether it has its source file
already. -/
def addWords (request : Request) (named : Bool) : List String → Option Request
  | [] => if named then some request else none
  | word :: rest =>
    if word == "--fold-labels" then addWords { request with foldLabels := true } named rest
    else if word == "--debug" || word == "-d" then addWords request named rest
    else if valueOptions.contains word then
      match rest with
      | [] => none
      | value :: rest => (request.setOption? word value).bind (addWords · named rest)
    else if named || word.toList.head? == some '-' then none
    else addWords { request with input := word } true rest

/-- The request of a command line, if it makes one. -/
def ofWords? (words : List String) : Option Request :=
  addWords { input := "" } false (words.flatMap splitWord)

end Request

end TraceGraph
