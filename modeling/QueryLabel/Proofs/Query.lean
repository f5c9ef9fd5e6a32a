import QueryLabel.Proofs.Json.Lookup
import QueryLabel.Query

/-!
Queries and the objects that they come from.  An object without an identifier is taken as it is;
where there is one, the last member moves into its place (`ofObject_cases`).
-/

namespace QueryLabel.Query

open Json (Members)

/-- What a query makes of an object. -/
theorem ofObject_cases (members : Members) :
    (idKey ∉ members.keys ∧ ofObject members = ⟨none, members⟩) ∨
      ∃ before id after, members = before ++ (idKey, id) :: after ∧ idKey ∉ before.keys ∧
        ofObject members = ⟨some id, before ++ Members.lastFirst after⟩ := by
  cases htake : members.take? idKey with
  | none =>
      refine Or.inl ⟨Members.take?_eq_none_iff.mp htake, ?_⟩
      simp [ofObject, htake]
  | some taken =>
      obtain ⟨id, others⟩ := taken
      obtain ⟨before, after, hmembers, hbefore, rfl⟩ := Members.exists_of_take? htake
      refine Or.inr ⟨before, id, after, hmembers, hbefore, ?_⟩
      simp [ofObject, htake]

theorem ofObject_of_not_mem {members : Members} (h : idKey ∉ members.keys) :
    ofObject members = ⟨none, members⟩ :=
  ofObject_of_take?_none (Members.take?_eq_none_iff.mpr h)

section Object

variable {members : Members}

/-- The identifier is not among the other fields. -/
theorem idKey_not_mem_extra (h : members.Distinct) : idKey ∉ (ofObject members).extra.keys := by
  rcases ofObject_cases members with ⟨hid, hquery⟩ | ⟨before, id, after, rfl, -, hquery⟩
  · rwa [hquery]
  · rw [hquery]
    exact (List.nodup_cons.mp (h.of_perm (Members.perm_hole _ before after))).1

theorem distinct_extra (h : members.Distinct) : (ofObject members).extra.Distinct := by
  rcases ofObject_cases members with ⟨-, hquery⟩ | ⟨before, id, after, rfl, -, hquery⟩
  · rwa [hquery]
  · rw [hquery]
    exact (List.nodup_cons.mp (h.of_perm (Members.perm_hole _ before after))).2

/-- The other fields have the values that they have in the object. -/
theorem find?_extra (h : members.Distinct) {key : Text} (hkey : key ≠ idKey) :
    (ofObject members).extra.find? key = members.find? key := by
  rcases ofObject_cases members with ⟨-, hquery⟩ | ⟨before, id, after, rfl, -, hquery⟩
  · rw [hquery]
  · rw [hquery, ← Members.find?_of_perm h (Members.perm_hole _ before after)]
    simp [Members.find?, Ne.symm hkey]

end Object

end QueryLabel.Query
