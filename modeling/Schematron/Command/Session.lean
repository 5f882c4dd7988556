import Schematron.Console.Table
import Schematron.Failure
import Schematron.Settings.Model

/-! Sessions of the command line: what has been printed so far, and how a session ends. -/

namespace Schematron.Command

structure Transcript where
  lines : List String
  level : Option Verbosity
deriving DecidableEq, Repr

inductive Ending
  | exit (code : Nat)
  | crash (failure : Failure)

abbrev Session := ExceptT Ending (StateM Transcript)

namespace Session

def echo (text : String) : Session Unit :=
  modify fun transcript =>
    { transcript with lines := transcript.lines ++ Text.splitString '\n' text }

def readMarkup {α : Type} (found : Except Console.MarkupFault α) : Session α :=
  match found with
  | .ok value => return value
  | .error _ => throw (.crash (.foreign "MarkupError" "markup is out of order"))

def print (markup : String) : Session Unit := do
  echo (← readMarkup (Console.Markup.plainText markup))

def printTable (table : Console.Table) : Session Unit := do
  let lines ← readMarkup table.lines
  modify fun transcript => { transcript with lines := transcript.lines ++ lines }

def setLevel (level : Verbosity) : Session Unit :=
  modify fun transcript => { transcript with level := some level }

def exit {α : Type} (code : Nat) : Session α := throw (.exit code)

def crash {α : Type} (failure : Failure) : Session α := throw (.crash failure)

def run (session : Session Unit) : Ending × Transcript :=
  match (ExceptT.run session).run ⟨[], none⟩ with
  | (.ok (), transcript) => (.exit 0, transcript)
  | (.error ending, transcript) => (ending, transcript)

end Session

end Schematron.Command
