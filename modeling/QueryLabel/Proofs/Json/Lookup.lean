import Mathlib.Data.List.Induction
import QueryLabel.Proofs.Json.Numeral

/-!
Looking up members by their keys.  Of members that are written one after the other the last one
with a key counts (`find?_collect`), in the place of the first one (`keys_collect`).  Taking a
member out leaves the others as they are, up to their order (`perm_of_take?`): the last one moves
into its place (`exists_of_take?`).
-/

namespace QueryLabel.Json

namespace Members

instance (members : Members) : Decidable members.Distinct :=
  inferInstanceAs (Decidable members.keys.Nodup)

/-! ### The order of members -/

section Order

variable {α β : Type} {list : List α}

/-- A list with its last element in front. -/
def lastFirst (list : List α) : List α :=
  list.getLast?.toList ++ list.dropLast

theorem map_lastFirst (f : α → β) (list : List α) :
    (lastFirst list).map f = lastFirst (list.map f) := by
  unfold lastFirst
  rw [List.map_append, List.map_dropLast, List.getLast?_map]
  cases list.getLast? <;> rfl

theorem perm_lastFirst (list : List α) : (lastFirst list).Perm list := by
  cases hlast : list.getLast? with
  | none =>
      rw [List.getLast?_eq_none_iff.mp hlast]
      rfl
  | some last =>
      obtain ⟨init, rfl⟩ := List.getLast?_eq_some_iff.mp hlast
      simpa [lastFirst] using (List.perm_append_singleton last init).symm

/-- An element is taken out, and the last one moves into its place. -/
theorem perm_hole (a : α) (before after : List α) :
    (a :: (before ++ lastFirst after)).Perm (before ++ a :: after) :=
  (((perm_lastFirst after).append_left before).cons a).trans List.perm_middle.symm

/-- The order stays only where there is no more than one element. -/
theorem lastFirst_eq_self_iff (h : list.Nodup) : lastFirst list = list ↔ list.length ≤ 1 := by
  match list with
  | [] => simp [lastFirst]
  | [a] => simp [lastFirst]
  | a :: b :: rest =>
      refine iff_of_false ?_ (by simp)
      intro heq
      have hlast : (b :: rest).getLast (List.cons_ne_nil b rest) = a := by
        rw [lastFirst, List.getLast?_cons_cons, List.getLast?_eq_some_getLast] at heq
        exact (List.cons_eq_cons.mp heq).1
      exact (List.nodup_cons.mp h).1 (hlast ▸ List.getLast_mem _)

theorem fillHole_eq (rest : Members) : fillHole rest = lastFirst rest := by
  unfold fillHole lastFirst
  cases hlast : rest.getLast? with
  | none =>
      rw [List.getLast?_eq_none_iff.mp hlast]
      rfl
  | some last => rfl

/-- Collected members stand in the order in which their keys come for the first time. -/
theorem keys_collect (members : Members) : (collect members).keys = members.keys.eraseDups := by
  induction members using List.reverseRecOn with
  | nil => rfl
  | append_singleton members member ih =>
      obtain ⟨key, value⟩ := member
      have hput : collect (members ++ [(key, value)]) = (collect members).put key value := by
        simp [collect]
      have hkeys : keys (members ++ [(key, value)]) = keys members ++ [key] := by simp [keys]
      rw [hput, keys_put, ih, hkeys, List.eraseDups_append]
      by_cases hkey : key ∈ keys members <;>
        simp [List.cons_removeAll, List.eraseDups_cons, hkey]

end Order

/-! ### Members by their keys -/

/-- The value of the last member with this key. -/
def last? (key : Text) (members : Members) : Option Json :=
  find? key members.reverse

section Find

variable {key : Text} {members others : Members} {value : Json}

theorem find?_append (key : Text) (members others : Members) :
    find? key (members ++ others) = (find? key members).or (find? key others) := by
  induction members with
  | nil => rfl
  | cons head rest ih =>
      obtain ⟨k, value⟩ := head
      by_cases hk : k = key
      · simp [find?, hk]
      · simpa [find?, hk] using ih

theorem last?_cons (key k : Text) (value : Json) (members : Members) :
    last? key ((k, value) :: members) = (last? key members).or (find? key [(k, value)]) := by
  simp only [last?, List.reverse_cons, find?_append]

theorem find?_foldl_put (key : Text) (members done : Members) :
    find? key (members.foldl (fun done member => done.put member.1 member.2) done) =
      (last? key members).or (find? key done) := by
  induction members generalizing done with
  | nil => rfl
  | cons head rest ih =>
      obtain ⟨k, value⟩ := head
      rw [List.foldl_cons, ih, last?_cons, Option.or_assoc]
      by_cases hk : k = key
      · subst hk
        simp [find?_put_self, find?]
      · simp [find?_put_of_ne (Ne.symm hk), find?, hk]

/-- Of the members with a key, the last one is collected. -/
theorem find?_collect (key : Text) (members : Members) :
    find? key (collect members) = last? key members := by
  unfold collect
  rw [find?_foldl_put]
  simp [find?]

/-- What is found is the value of a member. -/
theorem mem_of_find? (h : find? key members = some value) : (key, value) ∈ members := by
  induction members with
  | nil => contradiction
  | cons head rest ih =>
      obtain ⟨k, first⟩ := head
      unfold find? at h
      split at h
      · next hk =>
          cases h
          rw [hk]
          exact List.mem_cons_self
      · exact List.mem_cons_of_mem _ (ih h)

theorem mem_of_last? (h : last? key members = some value) : (key, value) ∈ members :=
  List.mem_reverse.mp (mem_of_find? h)

/-- What is taken out is what is found. -/
theorem map_fst_take? (key : Text) (members : Members) :
    (take? key members).map Prod.fst = find? key members := by
  induction members with
  | nil => rfl
  | cons head rest ih =>
      obtain ⟨k, value⟩ := head
      by_cases hk : k = key
      · simp [take?, find?, hk]
      · rw [find?, if_neg hk, ← ih, take?, if_neg hk]
        cases take? key rest <;> rfl

theorem Distinct.of_perm (h : members.Distinct) (hperm : others.Perm members) :
    others.Distinct :=
  (hperm.map Prod.fst).nodup_iff.mpr h

theorem find?_eq_none_iff : find? key members = none ↔ key ∉ members.keys := by
  induction members with
  | nil => exact iff_of_true rfl List.not_mem_nil
  | cons head rest ih =>
      obtain ⟨k, first⟩ := head
      by_cases hk : k = key
      · simp [find?, hk]
      · simp [find?, hk, ih, Ne.symm hk]

/-- Among distinct keys every member is found. -/
theorem find?_of_mem (h : members.Distinct) (hmem : (key, value) ∈ members) :
    find? key members = some value := by
  obtain ⟨before, after, rfl⟩ := List.append_of_mem hmem
  have hbefore : find? key before = none := by
    rw [find?_eq_none_iff]
    intro hkey
    simp only [Distinct, keys, List.map_append, List.map_cons, List.nodup_append] at h
    exact h.2.2 key hkey key List.mem_cons_self rfl
  rw [find?_append, hbefore]
  simp [find?]

/-- Among distinct keys the order makes no difference. -/
theorem find?_of_perm (h : members.Distinct) (hperm : others.Perm members) (key : Text) :
    find? key others = find? key members := by
  cases hfind : find? key members with
  | some value =>
      exact find?_of_mem (h.of_perm hperm) (hperm.mem_iff.mpr (mem_of_find? hfind))
  | none =>
      rw [find?_eq_none_iff] at hfind ⊢
      exact fun hkey => hfind ((hperm.map Prod.fst).mem_iff.mp hkey)

theorem take?_eq_none_iff : take? key members = none ↔ key ∉ members.keys := by
  rw [← find?_eq_none_iff, ← map_fst_take?, Option.map_eq_none_iff]

/-- The last member moves into the place of the one that is taken out. -/
theorem exists_of_take? (h : take? key members = some (value, others)) :
    ∃ before after, members = before ++ (key, value) :: after ∧ key ∉ before.keys ∧
      others = before ++ lastFirst after := by
  induction members generalizing others with
  | nil => contradiction
  | cons head rest ih =>
      obtain ⟨k, first⟩ := head
      unfold take? at h
      split at h
      · next hk =>
          cases h
          exact ⟨[], rest, by rw [hk]; rfl, List.not_mem_nil, fillHole_eq rest⟩
      · next hk =>
          split at h
          · contradiction
          · next found others' htake =>
              cases h
              obtain ⟨before, after, rfl, hbefore, rfl⟩ := ih htake
              refine ⟨(k, first) :: before, after, rfl, ?_, rfl⟩
              rw [keys_cons, List.mem_cons]
              exact not_or.mpr ⟨Ne.symm hk, hbefore⟩

/-- The members that stay are the others, in some order. -/
theorem perm_of_take? (h : take? key members = some (value, others)) :
    ((key, value) :: others).Perm members := by
  obtain ⟨before, after, rfl, -, rfl⟩ := exists_of_take? h
  exact perm_hole (key, value) before after

end Find

end Members

/-! ### Looking up trees -/

theorem keys_of_valueMembers? {trees values : Members} (h : valueMembers? trees = some values) :
    values.keys = trees.keys := by
  induction trees generalizing values with
  | nil =>
      cases h
      rfl
  | cons head rest ih =>
      obtain ⟨k, tree⟩ := head
      obtain ⟨value, others, hvalue, hothers, rfl⟩ := valueMembers?_cons h
      rw [Members.keys_cons, Members.keys_cons, ih hothers]

theorem find?_of_valueMembers? {trees values : Members} (h : valueMembers? trees = some values)
    (key : Text) : values.find? key = (trees.find? key).bind value? := by
  induction trees generalizing values with
  | nil =>
      cases h
      rfl
  | cons head rest ih =>
      obtain ⟨k, tree⟩ := head
      obtain ⟨value, others, hvalue, hothers, rfl⟩ := valueMembers?_cons h
      by_cases hk : k = key
      · simp [Members.find?, hk, hvalue]
      · simp [Members.find?, hk, ih hothers]

theorem valueMembers?_reverse {trees values : Members} (h : valueMembers? trees = some values) :
    valueMembers? trees.reverse = some values.reverse := by
  induction trees generalizing values with
  | nil =>
      cases h
      rfl
  | cons head rest ih =>
      obtain ⟨k, tree⟩ := head
      obtain ⟨value, others, hvalue, hothers, rfl⟩ := valueMembers?_cons h
      have hlast : valueMembers? [(k, tree)] = some [(k, value)] := by
        simp [valueMembers?, valueMember?, hvalue]
      simpa using valueMembers?_append (ih hothers) hlast

/-- The value of the last member with a key is the value of its tree. -/
theorem last?_of_valueMembers? {trees values : Members} (h : valueMembers? trees = some values)
    (key : Text) : values.last? key = (trees.last? key).bind value? :=
  find?_of_valueMembers? (valueMembers?_reverse h) key

/-- The last member with a key stands for a value. -/
theorem value?_of_last? {trees values : Members} (h : valueMembers? trees = some values)
    {key : Text} {tree : Json} (hlast : trees.last? key = some tree) :
    ∃ value, value? tree = some value :=
  value?_of_mem_members h _ (Members.mem_of_last? hlast)

end QueryLabel.Json
