import Schematron.Collector
import Schematron.Proofs.Text.Sanitizing
import Schematron.Proofs.Text.Splitting

/-!
Summaries of collected messages. Main statement: a summary has the lines of the messages in order,
and each message is a line of its own just when there is no line break in the middle of a text.
-/

namespace Schematron

open Text

/-! Line breaks -/

def Broken (text : String) : Prop :=
  ∃ before after, text.toList = before ++ '\n' :: after ∧
    (∃ char ∈ before, isSpaceChar char = false) ∧ ∃ char ∈ after, isSpaceChar char = false

/-- What stays when the ends are trimmed has something on both sides that is not dropped. -/
theorem Text.Trims.mem_iff {α : Type} {drop : α → Bool} {items trimmed : List α} {item : α}
    (trims : Trims drop items trimmed) (dropped : drop item = true) :
    item ∈ trimmed ↔ ∃ before after, items = before ++ item :: after ∧
      (∃ other ∈ before, drop other = false) ∧ ∃ other ∈ after, drop other = false := by
  obtain ⟨⟨lead, trail, rfl, leading, trailing⟩, head, last⟩ := trims
  constructor
  · intro member
    obtain ⟨before, after, rfl⟩ := List.append_of_mem member
    refine ⟨lead ++ before, after ++ trail, by simp, ?_, ?_⟩
    · cases before with
      | nil => simp [head item rfl] at dropped
      | cons other before => exact ⟨other, by simp, head other rfl⟩
    · rcases List.eq_nil_or_concat after with rfl | ⟨after, other, rfl⟩
      · simp [last item (by simp)] at dropped
      · exact ⟨other, by simp, last other (by simp [List.getLast?_cons])⟩
  · rintro ⟨before, after, whole, ⟨first, begins, solid⟩, second, ends, firm⟩
    -- The item is neither in what is dropped first nor in what is dropped last.
    rcases List.append_eq_append_iff.mp whole with ⟨rest, rfl, later⟩ | ⟨rest, rfl, -⟩
    · rcases List.append_eq_append_iff.mp later with ⟨others, rfl, last⟩ | ⟨others, rfl, inner⟩
      · have late : second ∈ trail := by simp [last, ends]
        simp [trailing second late] at firm
      · cases others with
        | nil =>
            have late : second ∈ trail := by
              rw [List.nil_append] at inner
              simp [← inner, ends]
            simp [trailing second late] at firm
        | cons other others =>
            obtain ⟨rfl, -⟩ := List.cons.inj inner
            simp
    · simp [leading first (List.mem_append_left _ begins)] at solid

theorem lineBreak_mem_trimString_iff {text : String} :
    '\n' ∈ (trimString text).toList ↔ Broken text := by
  rw [trimString, String.toList_ofList]
  exact (trims_trimBy isSpaceChar text.toList).mem_iff (by decide)

theorem lineBreak_notMem_repr (number : Int) : '\n' ∉ number.repr.toList := by
  have digits (value : Nat) : '\n' ∉ value.repr.toList := by
    rw [Nat.toList_repr]
    intro member
    have isDigit := Nat.isDigit_of_mem_toDigits (by decide) (by decide) member
    exact absurd isDigit (by decide)
  cases number with
  | ofNat value => exact digits value
  | negSucc value =>
      rw [Int.repr, String.toList_append, List.mem_append]
      rintro (sign | later)
      · exact absurd sign (by decide)
      · exact digits _ later

namespace StageMessage

/-- All line breaks of a message are those of its stage and of its text. -/
theorem count_summary (message : StageMessage) : message.summary.toList.count '\n' =
    message.stage.toList.count '\n' + message.message.toList.count '\n' := by
  obtain ⟨stage, level, text, line⟩ := message
  have label : level.label.toList.count '\n' = 0 := by
    cases level <;> decide
  have place (number : Int) : number.repr.toList.count '\n' = 0 :=
    List.count_eq_zero.mpr (lineBreak_notMem_repr number)
  rw [summary]
  split <;> simp [label, place]

end StageMessage

/-! Calls -/

namespace Collector

inductive Call
  | add (stage : String) (level : MessageLevel) (text : String) (line : Option Int)
  | collect (stage : String) (log : List LogEntry)

namespace Call

def stage : Call → String
  | add stage _ _ _ => stage
  | collect stage _ => stage

def texts : Call → List String
  | add _ _ text _ => [text]
  | collect _ log => log.map (·.message)

def entries : Call → List StageMessage
  | add stage level text line => [entry stage level text line]
  | collect stage log => log.map (ofLogEntry stage)

def perform (collector : Collector) : Call → Collector
  | add stage level text line => collector.add (entry stage level text line)
  | collect stage log => collector.collect stage log

variable {call : Call}

theorem stage_of_mem {message : StageMessage} (member : message ∈ call.entries) :
    message.stage = call.stage := by
  cases call with
  | add => rw [List.mem_singleton.mp member]; rfl
  | collect =>
      obtain ⟨logged, -, rfl⟩ := List.mem_map.mp member
      rfl

theorem messages_entries (call : Call) :
    call.entries.map (·.message) = call.texts.map trimString := by
  cases call with
  | add => rfl
  | collect =>
      rw [entries, texts, List.map_map, List.map_map]
      rfl

theorem unbroken_iff (call : Call) : (∀ message ∈ call.entries, '\n' ∉ message.message.toList) ↔
    ∀ text ∈ call.texts, ¬Broken text := by
  calc (∀ message ∈ call.entries, '\n' ∉ message.message.toList)
    _ ↔ ∀ text ∈ call.entries.map (·.message), '\n' ∉ text.toList := by
      rw [List.forall_mem_map]
    _ ↔ ∀ text ∈ call.texts, '\n' ∉ (trimString text).toList := by
      rw [messages_entries, List.forall_mem_map]
    _ ↔ ∀ text ∈ call.texts, ¬Broken text := by simp only [lineBreak_mem_trimString_iff]

theorem messages_foldl_add (messages : List StageMessage) (collector : Collector) :
    (messages.foldl Collector.add collector).messages = collector.messages ++ messages := by
  induction messages generalizing collector with
  | nil => simp
  | cons message messages ih => simp [ih, Collector.add]

theorem messages_perform (collector : Collector) (call : Call) :
    (call.perform collector).messages = collector.messages ++ call.entries := by
  cases call with
  | add => rfl
  | collect stage log => exact messages_foldl_add (log.map (ofLogEntry stage)) collector

end Call

def after (source : String) (calls : List Call) : Collector :=
  calls.foldl Call.perform (empty source)

theorem messages_after (source : String) (calls : List Call) :
    (after source calls).messages = calls.flatMap Call.entries := by
  have gathers (collector : Collector) : (calls.foldl Call.perform collector).messages =
      collector.messages ++ calls.flatMap Call.entries := by
    induction calls generalizing collector with
    | nil => simp
    | cons call calls ih => simp [ih, Call.messages_perform]
  exact gathers (empty source)

variable {collector : Collector} {calls : List Call}

theorem splitString_summary (kept : collector.messages ≠ []) :
    splitString '\n' collector.summary =
      (collector.messages.map StageMessage.summary).flatMap (splitString '\n') :=
  splitString_intercalate rfl (by simpa using kept)

def LineForEach (collector : Collector) : Prop :=
  if collector.messages = [] then collector.summary = ""
  else splitString '\n' collector.summary = collector.messages.map StageMessage.summary

theorem length_lines {messages : List StageMessage}
    (own : ∀ message ∈ messages,
      message.summary.toList.count '\n' = message.message.toList.count '\n') :
    (messages.flatMap fun message => splitString '\n' message.summary).length =
      messages.length + (messages.flatMap (·.message.toList)).count '\n' := by
  induction messages with
  | nil => rfl
  | cons message messages ih =>
      rw [List.forall_mem_cons] at own
      rw [List.flatMap_cons, List.length_append, length_splitString, own.1, ih own.2,
        List.length_cons, List.flatMap_cons, List.count_append]
      omega

theorem lineForEach_iff : LineForEach collector ↔
    ∀ message ∈ collector.messages, '\n' ∉ message.summary.toList := by
  rw [LineForEach]
  split
  next none => simp [none, summary]
  next kept => rw [splitString_summary kept, flatMap_splitString_eq_iff, List.forall_mem_map]

/-- How a summary shows what calls have brought. -/
structure Summarizes (calls : List Call) (collector : Collector) : Prop where
  kept : collector.messages = calls.flatMap Call.entries
  nothing : collector.messages = [] → collector.summary = ""
  lines : collector.messages ≠ [] → splitString '\n' collector.summary =
    collector.messages.flatMap fun message => splitString '\n' message.summary
  number : collector.messages ≠ [] → (splitString '\n' collector.summary).length =
    collector.messages.length + (collector.messages.flatMap (·.message.toList)).count '\n'
  single : LineForEach collector ↔ ∀ call ∈ calls, ∀ text ∈ call.texts, ¬Broken text

section Stages

variable (named : ∀ call ∈ calls, '\n' ∉ call.stage.toList)
include named

theorem count_summary_of_mem {message : StageMessage}
    (member : message ∈ calls.flatMap Call.entries) :
    message.summary.toList.count '\n' = message.message.toList.count '\n' := by
  obtain ⟨call, among, member⟩ := List.mem_flatMap.mp member
  have single : message.stage.toList.count '\n' = 0 := by
    rw [Call.stage_of_mem member]
    exact List.count_eq_zero.mpr (named call among)
  rw [message.count_summary, single, Nat.zero_add]

theorem unbroken_iff : (∀ message ∈ calls.flatMap Call.entries, '\n' ∉ message.summary.toList) ↔
    ∀ call ∈ calls, ∀ text ∈ call.texts, ¬Broken text := by
  have same (message : StageMessage) (member : message ∈ calls.flatMap Call.entries) :
      '\n' ∉ message.summary.toList ↔ '\n' ∉ message.message.toList := by
    rw [← List.count_eq_zero, count_summary_of_mem named member, List.count_eq_zero]
  rw [forall₂_congr same]
  simp only [List.forall_mem_flatMap, Call.unbroken_iff]

/-- A summary has as many lines as there are messages, and one more for each line break in the
middle of a text: only without any does every message have a line of its own. -/
theorem summary_of_calls (source : String) : Summarizes calls (after source calls) where
  kept := messages_after source calls
  nothing none := by simp [summary, none]
  lines kept := by rw [splitString_summary kept, List.flatMap_map]
  number kept := by
    rw [splitString_summary kept, List.flatMap_map, messages_after]
    exact length_lines fun message => count_summary_of_mem named
  single := by rw [lineForEach_iff, messages_after, unbroken_iff named]

end Stages

def unevenCalls : List Call :=
  -- A text of two lines, and one with blank lines around it.
  [.add "include" .warning "unknown element\nin a rule" none,
    .collect "compile" [⟨"\n bad pattern \n", "ERROR", some 7⟩]]

/-- Two messages make three lines, as the line break in the first one stays. -/
theorem unevenCalls_summary : (∀ call ∈ unevenCalls, '\n' ∉ call.stage.toList) ∧
    splitString '\n' (after "books.sch" unevenCalls).summary =
      ["[WARNING] include: unknown element", "in a rule", "[ERROR] compile: bad pattern (line 7)"] ∧
    ¬LineForEach (after "books.sch" unevenCalls) ∧
    Summarizes unevenCalls (after "books.sch" unevenCalls) := by
  have named : ∀ call ∈ unevenCalls, '\n' ∉ call.stage.toList := by
    decide +kernel
  have summarizes := summary_of_calls named "books.sch"
  have broken : Broken "unknown element\nin a rule" :=
    lineBreak_mem_trimString_iff.mp (by decide +kernel)
  refine ⟨named, by decide +kernel, fun single => ?_, summarizes⟩
  exact summarizes.single.mp single _ List.mem_cons_self _ List.mem_cons_self broken

end Collector

end Schematron
