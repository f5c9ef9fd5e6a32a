import QueryLabel.Json.Basic

/-!
Ordered members of an object.  `put` keeps the place of a key that is already there, and `take?`
fills the hole that it leaves with the last member.  Keys that are distinct stay distinct under
both.
-/

namespace QueryLabel.Json

/-- Members of an object in their order. -/
abbrev Members := List (Text × Json)

namespace Members

/-- The keys in their order. -/
def keys (members : Members) : List Text :=
  members.map Prod.fst

/-- No key occurs twice. -/
def Distinct (members : Members) : Prop :=
  members.keys.Nodup

/-- The value of the first member with this key. -/
def find? (key : Text) : Members → Option Json
  | [] => none
  | (k, value) :: rest => if k = key then some value else find? key rest

/-- Give a key a value: a key that is there keeps its place and changes its value, and a new key
goes to the end. -/
def put (key : Text) (value : Json) : Members → Members
  | [] => [(key, value)]
  | (k, old) :: rest => if k = key then (k, value) :: rest else (k, old) :: put key value rest

/-- Close a hole at the front by moving the last member there. -/
def fillHole (rest : Members) : Members :=
  match rest.getLast? with
  | none => []
  | some last => last :: rest.dropLast

/-- Take the member with this key out: its value, and the members that stay.  The last member
moves into the place that became free. -/
def take? (key : Text) : Members → Option (Json × Members)
  | [] => none
  | (k, value) :: rest =>
      if k = key then some (value, fillHole rest)
      else
        match take? key rest with
        | none => none
        | some (found, others) => some (found, (k, value) :: others)

@[simp] theorem keys_nil : keys [] = [] := rfl

@[simp] theorem keys_cons (k : Text) (value : Json) (rest : Members) :
    keys ((k, value) :: rest) = k :: keys rest := rfl

/-- The keys after `put`: the same ones if the key was there, and one more at the end if not. -/
theorem keys_put (key : Text) (value : Json) (members : Members) :
    (members.put key value).keys =
      if key ∈ members.keys then members.keys else members.keys ++ [key] := by
  induction members with
  | nil => simp [put]
  | cons head rest ih =>
      obtain ⟨k, old⟩ := head
      by_cases hk : k = key
      · simp [put, hk]
      · have hk' : ¬ key = k := fun h => hk h.symm
        simp only [put, hk, ↓reduceIte, keys_cons, ih, List.mem_cons, hk', false_or]
        split <;> rfl

theorem Distinct.put {members : Members} (h : members.Distinct) (key : Text) (value : Json) :
    (members.put key value).Distinct := by
  unfold Distinct at *
  rw [keys_put]
  split
  · exact h
  · next hkey =>
      rw [List.nodup_append]
      refine ⟨h, by simp, ?_⟩
      intro a ha b hb
      simp only [List.mem_singleton] at hb
      subst hb
      exact fun hab => hkey (hab ▸ ha)

theorem find?_put_self (key : Text) (value : Json) (members : Members) :
    (members.put key value).find? key = some value := by
  induction members with
  | nil => simp [put, find?]
  | cons head rest ih =>
      obtain ⟨k, old⟩ := head
      by_cases hk : k = key <;> simp [put, find?, hk, ih]

theorem find?_put_of_ne {key other : Text} (h : other ≠ key) (value : Json)
    (members : Members) : (members.put key value).find? other = members.find? other := by
  induction members with
  | nil => simp [put, find?, Ne.symm h]
  | cons head rest ih =>
      obtain ⟨k, old⟩ := head
      by_cases hk : k = key
      · simp [put, find?, hk, Ne.symm h]
      · rw [put, if_neg hk]
        by_cases ho : k = other <;> simp [find?, ho, ih]

example : (take? ['a'] [(['a'], .null), (['b'], .bool true), (['c'], .array [])]) =
    some (.null, [(['c'], .array []), (['b'], .bool true)]) := rfl

end Members

end QueryLabel.Json
