import Stencil.Proofs.Reader.Contents
import Stencil.Proofs.Template.Filling
import Stencil.Proofs.Value.Casting

/-!
Getting the input back from the table that was read. If every tag has a path of its own
and no value is a floating-point number, nothing was lost: the template with the values
in place of the tags is the input.
-/
namespace Stencil

def Table.shown? (table : Table) (path : Path) : Option Text :=
  (((Value.table table).descend? path.segments).bind Value.scalar?).map Scalar.written

def Template.refill? (template : Template) (table : Table) : Option Text :=
  (template.tags.mapM fun tag => table.shown? tag.key).map (fill template.parts)

theorem Table.shown?_of_find? {table : Table} {path : Path} {content : Scalar}
    (found : table.find? path = some (.scalar content)) :
    table.shown? path = some content.written := by
  simp [shown?, descend?_segments, found, Value.scalar?]

-- Where each look-up gives what it is paired with, all of them give all of it.
theorem mapM_eq_some_of_zip {Asked Given : Type} {look : Asked → Option Given}
    {asked : List Asked} {given : List Given} (length : given.length = asked.length)
    (paired : ∀ pair ∈ asked.zip given, look pair.1 = some pair.2) :
    asked.mapM look = some given := by
  induction asked generalizing given with
  | nil =>
      obtain rfl := List.length_eq_zero_iff.mp length
      rfl
  | cons first rest ih =>
      cases given with
      | nil => simp at length
      | cons result others =>
          have here := paired (first, result) (by simp)
          have further := ih (by simpa using length)
            fun pair member => paired pair (by simp [member])
          simp [List.mapM_cons, here, further]

namespace Reader
variable {refusal? : Pattern → Option Refusal} {source : Text} {reader : Reader}

-- Without a second tag on the path, no later capture replaces the first.
theorem find?_of_distinct (checked : reader.Checked source)
    (distinct : (reader.tags.map Tag.key).Nodup) {input : Text} {captured : List Text}
    (division : Division reader.template.parts input captured) {tag : Tag} {content : Text}
    (paired : (tag, content) ∈ reader.tags.zip captured) :
    (reader.tableOf captured).find? tag.key = some (.scalar (Scalar.ofText content)) := by
  have length : captured.length = reader.tags.length := length_of_division division
  obtain ⟨earlier, later, split⟩ := List.append_of_mem paired
  rw [← Table.descend?_segments]
  apply (files_tableOf checked division).last_capture earlier tag content later split
  have keys : (reader.tags.zip captured).map (fun entry => entry.1.key) =
      reader.tags.map Tag.key := by
    rw [← paths_eq length, entriesOf, List.map_map]
    rfl
  rw [← keys, split, List.map_append, List.map_cons, List.nodup_append] at distinct
  intro entry member same
  apply (List.nodup_cons.mp distinct.2.1).1
  exact List.mem_map.mpr ⟨entry, member, same⟩

/-- The template filled with the values that were read is the input, provided that the
paths differ and no value is a floating-point number. -/
theorem refill_read (compiled : compile refusal? source = .ok reader)
    (distinct : (reader.tags.map Tag.key).Nodup) {input : Text} {table : Table}
    (found : reader.read input = some table)
    (exact : ∀ leaf ∈ table.leaves, ∀ number, leaf.2 ≠ .float number) :
    reader.template.refill? table = some input := by
  have checked := checked_of_compile compiled
  obtain ⟨captured, division, rfl⟩ := division_of_read checked found
  have shown : ∀ pair ∈ reader.tags.zip captured,
      (reader.tableOf captured).shown? pair.1.key = some pair.2 := by
    intro pair paired
    have held := find?_of_distinct checked distinct division paired
    have leaf := exact _ (Table.mem_leaves_of_find? held)
    rw [Table.shown?_of_find? held, Scalar.written_ofText leaf]
  have texts : reader.template.tags.mapM (fun tag => (reader.tableOf captured).shown? tag.key) =
      some captured :=
    mapM_eq_some_of_zip (length_of_division division) shown
  rw [Template.refill?, texts, Option.map_some, fill_of_division division]

/-- A template whose first value keeps its zeros, and whose last may be beyond 64 bits. -/
def ledgerSource : Text := "{{id: 3d}}|{{n.1}}:{{n.0: d}};".toList

def ledgerSample : Reader where
  source := ledgerSource
  template := ⟨[
    .tag ⟨.last (.name ['i', 'd']), some (.digits (.exactly 3 (by decide))), none, some '|', 0⟩,
    .literal ['|'],
    .tag ⟨.step (.name ['n']) (.last (.index 1)), none, some '|', some ':', 11⟩,
    .literal [':'],
    .tag ⟨.step (.name ['n']) (.last (.index 0)), some (.digits .oneOrMore), some ':', some ';', 19⟩,
    .literal [';']]⟩

def ledgerTable : Table :=
  .leaf (.name ['i', 'd']) (.text "007".toList) <|
    .branch (.name ['n'])
      (.leaf (.index 0) (.text "9223372036854775808".toList) <|
        .leaf (.index 1) (.integer (-12)) .empty)
      .empty

theorem ledger_refill :
    compile Pattern.refusal? ledgerSource = .ok ledgerSample ∧
    (ledgerSample.tags.map Tag.key).Nodup ∧
    ledgerSample.read "007|-12:9223372036854775808;".toList = some ledgerTable ∧
    (∀ leaf ∈ ledgerTable.leaves, ∀ number, leaf.2 ≠ .float number) ∧
    ledgerSample.template.refill? ledgerTable = some "007|-12:9223372036854775808;".toList := by
  have compiled : compile Pattern.refusal? ledgerSource = .ok ledgerSample := by
    apply toOption_eq_some_iff.mp
    decide +kernel
  have distinct : (ledgerSample.tags.map Tag.key).Nodup := by decide +kernel
  have found : ledgerSample.read "007|-12:9223372036854775808;".toList = some ledgerTable := by
    decide +kernel
  have exact : ∀ leaf ∈ ledgerTable.leaves, ∀ number, leaf.2 ≠ .float number := by
    simp [ledgerTable, Table.leaves]
  exact ⟨compiled, distinct, found, exact, refill_read compiled distinct found exact⟩

end Reader
end Stencil
