import Stencil.Proofs.Json.Printing
import Stencil.Proofs.Reader.Matching
import Stencil.Report

/-!
The lines of a report. Without colour and in compact form every result takes one line, so
the report can be cut into its documents again, and a line is null only where an input was
not accepted.
-/
namespace Stencil

theorem Json.head?_written_ofTable (form : JsonForm) (level : Nat) (table : Table) :
    ((ofTable table).written form level).head? = some '[' ∨
      ((ofTable table).written form level).head? = some '{' := by
  rw [ofTable, ofEntries]
  split
  · left
    cases (entriesOf table).map Prod.snd <;> simp [written]
  · right
    cases sortedMembers (entriesOf table) <;> simp [written]

namespace Report

def document (form : JsonForm) : Option Table → Text
  | none => "null".toList
  | some table => Json.document form (Json.ofTable table)

theorem result_eq_document (form : JsonForm) (found : Option Table) :
    result false form found = document form found ++ ['\n'] := by
  cases found <;> rfl

theorem inline_document (found : Option Table) : (document .compact found).Inline := by
  cases found with
  | none => simp [document]
  | some table => exact Json.inline_written 0 (Json.ofTable table)

theorem document_eq_null_iff (form : JsonForm) (found : Option Table) :
    document form found = "null".toList ↔ found = none := by
  cases found with
  | none => simp [document]
  | some table =>
      have opening := Json.head?_written_ofTable form 0 table
      simp only [document, Json.document, reduceCtorEq, iff_false]
      intro null
      simp [null] at opening

section
variable {lines : List Text}

theorem splitOn_lines (unbroken : ∀ line ∈ lines, '\n' ∉ line) :
    (lines.flatMap fun line => line ++ ['\n']).splitOn '\n' = lines ++ [[]] := by
  induction lines with
  | nil => rfl
  | cons line rest ih =>
      obtain ⟨here, further⟩ := List.forall_mem_cons.mp unbroken
      rw [List.flatMap_cons, List.append_assoc, List.singleton_append,
        List.splitOn_append_cons_self_of_not_mem here, ih further, List.cons_append]

theorem count_lines (unbroken : ∀ line ∈ lines, '\n' ∉ line) :
    (lines.flatMap fun line => line ++ ['\n']).count '\n' = lines.length := by
  induction lines with
  | nil => rfl
  | cons line rest ih =>
      obtain ⟨here, further⟩ := List.forall_mem_cons.mp unbroken
      rw [List.flatMap_cons, List.count_append, List.count_append, List.count_eq_zero.mpr here,
        ih further]
      simp [Nat.add_comm]

end

theorem results_eq_lines (form : JsonForm) (all : List (Option Table)) :
    results false form all = (all.map (document form)).flatMap fun line => line ++ ['\n'] := by
  rw [results, List.flatMap_map]
  congr
  funext found
  exact result_eq_document form found

theorem visible_lines {lines : List Text} (inline : ∀ line ∈ lines, line.Inline) :
    ∀ c ∈ lines.flatMap fun line => line ++ ['\n'], c = '\n' ∨ ' ' ≤ c := by
  intro c member
  obtain ⟨line, among, within⟩ := List.mem_flatMap.mp member
  rcases List.mem_append.mp within with inside | behind
  · exact Or.inr (inline line among c inside)
  · exact Or.inl (List.mem_singleton.mp behind)

structure Lined (reader : Reader) (inputs : List Text) (printed : Text) : Prop where
  ended : printed = inputs.flatMap fun input => document .compact (reader.read input) ++ ['\n']
  visible : ∀ c ∈ printed, c = '\n' ∨ ' ' ≤ c
  count : printed.count '\n' = inputs.length
  lines : printed.splitOn '\n' =
    inputs.map (fun input => document .compact (reader.read input)) ++ [[]]
  null_iff : ∀ (position : Nat) (input : Text), inputs[position]? = some input →
    ((printed.splitOn '\n')[position]? = some "null".toList ↔ reader.accepts input = false)

end Report

namespace Reader
variable {refusal? : Pattern → Option Refusal} {source : Text} {reader : Reader}

theorem read_eq_none_iff (checked : reader.Checked source) (input : Text) :
    reader.read input = none ↔ reader.accepts input = false := by
  rw [← Option.not_isSome_iff_eq_none, read_isSome_iff checked, Bool.not_eq_true]

/-- Whatever the captured texts and the keys hold, the compact report of a batch is cut at
its line ends into the documents of the inputs. -/
theorem lined_results (compiled : compile refusal? source = .ok reader) (inputs : List Text) :
    Report.Lined reader inputs (Report.results false .compact (inputs.map reader.read)) := by
  have checked := checked_of_compile compiled
  have inline : ∀ line ∈ (inputs.map reader.read).map (Report.document .compact), line.Inline := by
    intro line member
    obtain ⟨found, -, rfl⟩ := List.mem_map.mp member
    exact Report.inline_document found
  have unbroken : ∀ line ∈ (inputs.map reader.read).map (Report.document .compact), '\n' ∉ line :=
    fun line member => (inline line member).newline_not_mem
  have cut := Report.splitOn_lines unbroken
  rw [Report.results_eq_lines]
  constructor
  case ended => simp [List.flatMap_map]
  case visible => exact Report.visible_lines inline
  case count => simpa using Report.count_lines unbroken
  case lines => rw [cut, List.map_map, Function.comp_def]
  case null_iff =>
    intro position input placed
    have document : ((inputs.map reader.read).map (Report.document .compact) ++ [[]])[position]? =
        some (Report.document .compact (reader.read input)) := by
      have inside : position < inputs.length := (List.getElem?_eq_some_iff.mp placed).1
      rw [List.getElem?_append_left (by simpa using inside)]
      simp [placed]
    rw [cut, document, Option.some.injEq, Report.document_eq_null_iff, read_eq_none_iff checked]

def verseSource : Text := "\x7b\x7btop\nline\x7d\x7d=\x7b\x7brest\x7d\x7d".toList

def verseSample : Reader where
  source := verseSource
  template := ⟨[
    .tag ⟨.last (.name "top\nline".toList), none, none, some '=', 0⟩,
    .literal ['='],
    .tag ⟨.last (.name "rest".toList), none, some '=', none, 13⟩]⟩

/-- The last input captures line ends and a quote, and still takes one line. -/
theorem verse_lines :
    compile Pattern.refusal? verseSource = .ok verseSample ∧
    (Report.results false .compact
      (["none".toList, "1=\r\n\"\n".toList].map verseSample.read)).splitOn '\n' =
      ["null".toList, "\x7b\"rest\":\"\\r\\n\\\"\\n\",\"top\\nline\":1\x7d".toList, []] := by
  have compiled : compile Pattern.refusal? verseSource = .ok verseSample := by
    apply toOption_eq_some_iff.mp
    decide +kernel
  refine ⟨compiled, ?_⟩
  rw [(lined_results compiled _).lines]
  decide +kernel

end Reader
end Stencil
