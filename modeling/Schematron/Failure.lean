import Schematron.Decimal.Printed
import Schematron.Location.Path
import Schematron.Text.CodePoint

/-! Failures. A compilation failure stays with its rule set, an execution failure ends a report, and
a rejection is the normal outcome of a document that breaks its rules. -/

namespace Schematron

inductive TimeLimit
  | unlimited
  | count (value : Int)
  | seconds (value : Float)
  | flag (value : Bool)

namespace TimeLimit

def written : TimeLimit → String
  | unlimited => "None"
  | count value => toString value
  | seconds value => Decimal.Style.readable.print value
  | flag true => "True"
  | flag false => "False"

end TimeLimit

mutual

structure CompilationFailure where
  message : String
  source : Option String
  stage : Option String
  cause : Option Failure

inductive Failure
  | general (message : String)
  | compilation (failure : CompilationFailure)
  | timeout (source : String) (limit : TimeLimit)
  | cancelled (source : String) (note : Option String)
  | superseded (source : String) (generation : Int)
  | execution (message : String) (cause : Option Failure)
  | poolNotRunning (message : String)
  | rejected (header : String) (errors warnings : List Text)
  | foreign (kind message : String)
  -- A failure that has no text: the attempt to write it raises another one.
  | unwritable (kind : String) (isOwn : Bool) (raised : Failure)

end

namespace Failure

def rejection (header : String) (errors warnings : List Text) : Text :=
  let lineBreak := Text.ofString "\n"
  let listed (label : String) (messages : List Text) : Text :=
    messages.flatMap fun message => lineBreak ++ Text.ofString label ++ message
  Text.ofString header ++ listed "  error: " errors ++ listed "  warning: " warnings

def message : Failure → Text
  | general message => message
  | compilation failure => failure.message
  | timeout source limit =>
      "Compilation of " ++ source ++ " did not finish within " ++ limit.written ++ " seconds"
  | cancelled source note =>
      match note with
      | none | some "" => "Compilation of " ++ source ++ " was cancelled"
      | some note => note
  | superseded source generation =>
      "Compilation of " ++ source ++ " belongs to superseded generation " ++ toString generation
  | execution message _ => message
  | poolNotRunning message => message
  | rejected header errors warnings => rejection header errors warnings
  | foreign _ message => message
  | unwritable .. => []

/-- What is raised where a failure is to be written. -/
def onWriting? : Failure → Option Failure
  | unwritable _ _ raised => some raised
  | _ => none

def isCancellation : Failure → Bool
  | cancelled .. => true
  | superseded .. => true
  | _ => false

def isForeign : Failure → Bool
  | foreign .. => true
  | unwritable _ isOwn _ => !isOwn
  | _ => false

end Failure

namespace CompilationFailure

def missing (source : String) : CompilationFailure :=
  ⟨"Could not locate schematron file " ++ source, some source, none, none⟩

def unreadable (source detail : String) : CompilationFailure :=
  ⟨"Could not parse schematron file " ++ source ++ ": " ++ detail, some source, none,
    some (.foreign "XMLSyntaxError" detail)⟩

def stylesheet (stage path kind detail : String) : CompilationFailure :=
  ⟨"Could not load " ++ stage ++ " stylesheet " ++ path ++ ": " ++ detail, none, some stage,
    some (.foreign kind detail)⟩

def stageFailed (stage source detail : String) : CompilationFailure :=
  ⟨"Stage " ++ stage ++ " failed for schematron file " ++ source ++ ": " ++ detail, some source,
    some stage, some (.foreign "XSLTApplyError" detail)⟩

def noOutput (stage source : String) : CompilationFailure :=
  ⟨"Stage " ++ stage ++ " produced no output for schematron file " ++ source, some source,
    some stage, none⟩

def unusable (stage source detail : String) : CompilationFailure :=
  ⟨"Error trying to create validator using sch file " ++ source ++ ": " ++ detail, some source,
    some stage, some (.foreign "XSLTParseError" detail)⟩

def unexpected (source : String) (cause : Failure) : CompilationFailure :=
  ⟨"Error compiling schematron file " ++ source ++ ": " ++ cause.message.toStringLossy,
    some source, none, some cause⟩

end CompilationFailure

def LocationError.failure (error : LocationError) : Failure :=
  .foreign "RuntimeError" error.message

end Schematron
