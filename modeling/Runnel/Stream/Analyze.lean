import Runnel.Flow.Chunk
import Runnel.Number.Decimal
import Runnel.Text.Escaped

/-!
# Runnel.Stream.Analyze

Running totals over the chunks of a stream.
-/

namespace Runnel

/-- A total of its own: what each chunk adds to it, if anything. -/
structure Extractor where
  /-- The name of the total. -/
  name : String
  /-- What a chunk adds. -/
  extract : Chunk → Option Float

/-- What is to be counted. -/
structure AnalyzeConfig where
  /-- Output with this text in it counts as an error. -/
  errorMark : Option String
  /-- More totals. -/
  custom : List Extractor

/-- Running totals. -/
structure Metrics where
  /-- How many chunks there were. -/
  chunks : Nat
  /-- How many bytes there were. -/
  bytes : Nat
  /-- How many errors there were. -/
  errors : Nat
  /-- The totals that were asked for. -/
  custom : List (String × Float)

namespace Metrics

/-- No chunk has come yet. -/
def none : Metrics := ⟨0, 0, 0, []⟩

/-- How many chunks are errors, as a fraction. -/
def errorRate (m : Metrics) : Float :=
  Float.ofNat m.errors / Float.ofNat m.chunks

end Metrics

namespace AnalyzeConfig

/-- The text has the mark in it. -/
def holdsMark (mark : List Char) : List Char → Bool
  | [] => mark.isEmpty
  | c :: rest => mark.isPrefixOf (c :: rest) || holdsMark mark rest

/-- The chunk counts as an error: messages always do. -/
def isError (config : AnalyzeConfig) (c : Chunk) : Bool :=
  !c.isStdout || config.errorMark.any fun mark => holdsMark mark.toList c.text.toList

/-- Adds to a total. -/
def add (totals : List (String × Float)) (name : String) (value : Float) : List (String × Float) :=
  match totals with
  | [] => [(name, 0 + value)]
  | (n, total) :: rest =>
    if n == name then (n, total + value) :: rest else (n, total) :: add rest name value

/-- The totals after one more chunk. -/
def count (config : AnalyzeConfig) (m : Metrics) (c : Chunk) : Metrics where
  chunks := m.chunks + 1
  bytes := m.bytes + c.data.length
  errors := if config.isError c then m.errors + 1 else m.errors
  custom := config.custom.foldl
    (fun totals e =>
      match e.extract c with
      | some value => add totals e.name value
      | none => totals)
    m.custom

/-- Each chunk with the totals as of it, after those before it. -/
def analyzeFrom (config : AnalyzeConfig) (m : Metrics) : List Chunk → List (Chunk × Metrics)
  | [] => []
  | c :: rest =>
    let m := config.count m c
    (c, m) :: analyzeFrom config m rest

/-- Each chunk with the totals as of it. -/
def analyze (config : AnalyzeConfig) (chunks : List Chunk) : List (Chunk × Metrics) :=
  config.analyzeFrom .none chunks

/-- Characters that mean something in a search pattern. -/
def patternSpecials : List Char :=
  ['\\', '.', '+', '*', '?', '(', ')', '|', '[', ']', '\x7b', '\x7d', '^', '$', '#', '&', '-', '~']

/-- The search pattern that matches exactly a text. -/
def literalPattern (text : String) : String :=
  String.ofList (text.toList.flatMap fun c =>
    if patternSpecials.contains c then ['\\', c] else [c])

/-- A description for people. -/
def describe (config : AnalyzeConfig) : String :=
  let pattern := match config.errorMark with
    | some mark => "Some(" ++ Text.escaped (literalPattern mark) ++ ")"
    | none => "None"
  "AnalyzeConfig \x7b error_pattern: " ++ pattern ++ ", custom: " ++
    Text.bracketed (config.custom.map fun e => Text.escaped e.name) ++ " \x7d"

end AnalyzeConfig
end Runnel
