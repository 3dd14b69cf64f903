/-!
# JSON values

Payloads and metadata are JSON. Numbers are integers or floating point; a floating point number is
opaque and kept as its shortest text. An object is the list of its members in key order, and
`Fields.insert` keeps that order.

Main statements: `Fields.get?_insert_self`, `Fields.get?_insert_of_ne`, `Fields.get?_erase_self` and
`Fields.get?_erase_of_ne` say what the edits do to a lookup.
-/

namespace EventJournal

/-- A JSON value. -/
inductive Json where
  | null
  | bool (value : Bool)
  | int (value : Int)
  /-- A floating point number, as its shortest text. -/
  | float (text : String)
  | str (text : String)
  | arr (items : List Json)
  /-- An object, as its members in key order. -/
  | obj (fields : List (String × Json))
  deriving Repr, Inhabited

/-- The members of an object, in key order. -/
abbrev Fields := List (String × Json)

namespace Json

/-! ## Equality -/

mutual

/-- Structural comparison of two values. -/
def decEq : (a b : Json) → Decidable (a = b)
  | .null, .null => isTrue rfl
  | .bool a, .bool b => if h : a = b then isTrue (h ▸ rfl) else isFalse (by simpa using h)
  | .int a, .int b => if h : a = b then isTrue (h ▸ rfl) else isFalse (by simpa using h)
  | .float a, .float b => if h : a = b then isTrue (h ▸ rfl) else isFalse (by simpa using h)
  | .str a, .str b => if h : a = b then isTrue (h ▸ rfl) else isFalse (by simpa using h)
  | .arr a, .arr b =>
    match decEqItems a b with
    | isTrue h => isTrue (h ▸ rfl)
    | isFalse h => isFalse (by simpa using h)
  | .obj a, .obj b =>
    match decEqFields a b with
    | isTrue h => isTrue (h ▸ rfl)
    | isFalse h => isFalse (by simpa using h)
  | .null, .bool _ | .null, .int _ | .null, .float _ | .null, .str _ | .null, .arr _
  | .null, .obj _ | .bool _, .null | .bool _, .int _ | .bool _, .float _ | .bool _, .str _
  | .bool _, .arr _ | .bool _, .obj _ | .int _, .null | .int _, .bool _ | .int _, .float _
  | .int _, .str _ | .int _, .arr _ | .int _, .obj _ | .float _, .null | .float _, .bool _
  | .float _, .int _ | .float _, .str _ | .float _, .arr _ | .float _, .obj _ | .str _, .null
  | .str _, .bool _ | .str _, .int _ | .str _, .float _ | .str _, .arr _ | .str _, .obj _
  | .arr _, .null | .arr _, .bool _ | .arr _, .int _ | .arr _, .float _ | .arr _, .str _
  | .arr _, .obj _ | .obj _, .null | .obj _, .bool _ | .obj _, .int _ | .obj _, .float _
  | .obj _, .str _ | .obj _, .arr _ => isFalse (by simp)

/-- Structural comparison of two lists of values. -/
def decEqItems : (a b : List Json) → Decidable (a = b)
  | [], [] => isTrue rfl
  | [], _ :: _ | _ :: _, [] => isFalse (by simp)
  | x :: xs, y :: ys =>
    match decEq x y, decEqItems xs ys with
    | isTrue h, isTrue hs => isTrue (by rw [h, hs])
    | isFalse h, _ => isFalse (by simp [h])
    | _, isFalse hs => isFalse (by simp [hs])

/-- Structural comparison of two lists of members. -/
def decEqFields : (a b : List (String × Json)) → Decidable (a = b)
  | [], [] => isTrue rfl
  | [], _ :: _ | _ :: _, [] => isFalse (by simp)
  | (k, x) :: xs, (l, y) :: ys =>
    if hk : k = l then
      match decEq x y, decEqFields xs ys with
      | isTrue h, isTrue hs => isTrue (by rw [hk, h, hs])
      | isFalse h, _ => isFalse (by simp [h])
      | _, isFalse hs => isFalse (by simp [hs])
    else isFalse (by simp [hk])

end

instance : DecidableEq Json := decEq

/-! ## Views -/

/-- The text of a string value. -/
def asStr? : Json → Option String
  | .str text => some text
  | _ => none

/-- The members of an object value. -/
def asFields? : Json → Option Fields
  | .obj fields => some fields
  | _ => none

end Json

namespace Fields

/-! ## Members of an object -/

/-- The value of the member named `key`. -/
def get? (fields : Fields) (key : String) : Option Json :=
  fields.lookup key

/-- Whether there is a member named `key`. -/
def contains (fields : Fields) (key : String) : Bool :=
  (fields.get? key).isSome

/-- Sets the member named `key`, in its place in key order. -/
def insert : Fields → String → Json → Fields
  | [], key, value => [(key, value)]
  | (k, v) :: rest, key, value =>
    if key = k then (key, value) :: rest
    else if key < k then (key, value) :: (k, v) :: rest
    else (k, v) :: insert rest key value

/-- Removes the member named `key`. -/
def erase (fields : Fields) (key : String) : Fields :=
  fields.filter (fun field => field.1 ≠ key)

/-- The members of a list of pairs; of two with one name the later counts. -/
def ofList (pairs : List (String × Json)) : Fields :=
  pairs.foldl (fun fields pair => fields.insert pair.1 pair.2) []

/-- Moves the value at `source` to `target`. `none` if there is no member named `source`. -/
def rename? (fields : Fields) (source target : String) : Option Fields :=
  (fields.get? source).map fun value => (fields.erase source).insert target value

theorem get?_insert_self (fields : Fields) (key : String) (value : Json) :
    (fields.insert key value).get? key = some value := by
  induction fields with
  | nil => simp [insert, get?]
  | cons head rest ih =>
    obtain ⟨k, v⟩ := head
    by_cases hk : key = k
    · simp [insert, get?, hk]
    · by_cases hlt : key < k
      · simp [insert, get?, hk, hlt]
      · have hb : (key == k) = false := by simpa using hk
        simpa [insert, get?, hk, hlt, List.lookup_cons, hb] using ih

theorem get?_insert_of_ne (fields : Fields) {key other : String} (value : Json) (h : other ≠ key) :
    (fields.insert key value).get? other = fields.get? other := by
  have ho : (other == key) = false := by simpa using h
  induction fields with
  | nil => simp [insert, get?, List.lookup_cons, ho]
  | cons head rest ih =>
    obtain ⟨k, v⟩ := head
    by_cases hk : key = k
    · subst hk
      simp [insert, get?, List.lookup_cons, ho]
    · by_cases hlt : key < k
      · simp [insert, get?, hk, hlt, List.lookup_cons, ho]
      · unfold get? at ih
        simp [insert, get?, hk, hlt, List.lookup_cons, ih]

theorem get?_erase_self (fields : Fields) (key : String) : (fields.erase key).get? key = none := by
  induction fields with
  | nil => rfl
  | cons head rest ih =>
    obtain ⟨k, v⟩ := head
    by_cases hk : k = key
    · simpa [erase, hk] using ih
    · have hb : (key == k) = false := by simpa using Ne.symm hk
      simpa [erase, get?, hk, List.lookup_cons, hb] using ih

theorem get?_erase_of_ne (fields : Fields) {key other : String} (h : other ≠ key) :
    (fields.erase key).get? other = fields.get? other := by
  induction fields with
  | nil => rfl
  | cons head rest ih =>
    obtain ⟨k, v⟩ := head
    unfold get? at ih
    by_cases hk : k = key
    · subst hk
      have hb : (other == k) = false := by simpa using h
      simpa [erase, get?, List.lookup_cons, hb] using ih
    · by_cases ho : other = k
      · simp [erase, get?, ho, hk]
      · have hb : (other == k) = false := by simpa using ho
        simpa [erase, get?, hk, List.lookup_cons, hb] using ih

end Fields

/-- The member of an object value named `field`; no other value has members. -/
def Json.get? (value : Json) (field : String) : Option Json :=
  value.asFields?.bind (·.get? field)

/-- An object value with the given members. -/
def Json.ofPairs (pairs : List (String × Json)) : Json :=
  .obj (Fields.ofList pairs)

end EventJournal
