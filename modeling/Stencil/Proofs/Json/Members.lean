import Stencil.Json.Basic
import Stencil.Proofs.Value.Lookup

/-!
The members of an object. Where all keys have different texts, none of them takes the
place of another: the members are the entries, named by the texts of their keys.
-/
namespace Stencil
namespace Json

def named (entry : Key × Json) : Text × Json := (entry.1.written, entry.2)

-- A new name comes between the others and replaces nothing.
theorem setMember_perm {name : Text} {members : List (Text × Json)}
    (fresh : name ∉ members.map Prod.fst) (value : Json) :
    (setMember name value members).Perm ((name, value) :: members) := by
  induction members with
  | nil => exact .refl _
  | cons first rest ih =>
      obtain ⟨other, held⟩ := first
      rw [List.map_cons, List.mem_cons, not_or] at fresh
      obtain ⟨different, further⟩ := fresh
      rw [setMember, if_neg different]
      split
      · exact .refl _
      · exact ((ih further).cons _).trans (.swap _ _ _)

theorem foldl_setMember_perm {entries : List (Key × Json)} {members : List (Text × Json)}
    (distinct : ((entries.map named ++ members).map Prod.fst).Nodup) :
    (entries.foldl (fun members entry => setMember entry.1.written entry.2 members) members).Perm
      (entries.map named ++ members) := by
  induction entries generalizing members with
  | nil => exact .refl _
  | cons entry rest ih =>
      have apart : ((named entry :: (rest.map named ++ members)).map Prod.fst).Nodup := distinct
      rw [List.map_cons, List.nodup_cons, List.map_append, List.mem_append, not_or] at apart
      have step := setMember_perm apart.1.2 entry.2
      have moved : (rest.map named ++ setMember entry.1.written entry.2 members).Perm
          (named entry :: (rest.map named ++ members)) :=
        (step.append_left _).trans List.perm_middle
      exact (ih ((moved.map Prod.fst).nodup_iff.mpr distinct)).trans moved

/-- No member is lost, and none is added. -/
theorem sortedMembers_perm {entries : List (Key × Json)}
    (distinct : ((entries.map Prod.fst).map Key.written).Nodup) :
    (sortedMembers entries).Perm (entries.map named) := by
  have names : (entries.map named ++ []).map Prod.fst = (entries.map Prod.fst).map Key.written := by
    simp [named]
  rw [← names] at distinct
  have placed := foldl_setMember_perm distinct
  rwa [List.append_nil] at placed

/-- Keys that read back from their texts have different texts. -/
theorem nodup_written {keys : List Key} (readable : ∀ key ∈ keys, Key.ofText key.written = key)
    (ordered : keys.Pairwise (· < ·)) : (keys.map Key.written).Nodup := by
  rw [List.Nodup, List.pairwise_map]
  apply ordered.imp_of_mem
  intro first second firstMember secondMember before same
  have equal : first = second := by
    rw [← readable first firstMember, ← readable second secondMember, same]
  exact Key.ne_of_lt before equal

end Json
end Stencil
