import EventJournal.Json.Reader
import EventJournal.Json.Text

/-!
# JSON text reads back

The text of a value is read as that value. A reader takes a value off the front of a text and leaves the rest,
so what is proved of each kind of text is that its reader leaves what follows it; what follows a value goes on
or ends the list or the object around it, and no number does.

* `Json.Legible` — the values that text carries: numbers are 64-bit words or floating point numbers whose text
  reads back, members are in key order, and only so many levels are open.
* `Json.readNumber_toDigits`, `Json.readString_quote` — numbers and strings.
* `Json.readItems_tailText`, `Json.readMembers_tailMembers` — the loops over items and members, by induction on
  what is left of them.
* `Json.parse_compact` — the text of a legible value is read as that value, by induction on its levels.
-/

namespace EventJournal.Json

/-! ## The text ahead -/

/-- A reader took a value off the front of a text and left the rest. -/
def Takes {α : Type} (result : Except SyntaxError (α × Cursor)) (value : α) (rest : List Char) : Prop :=
  ∃ after, result = .ok (value, after) ∧ after.rest = rest

/-- What may follow a value: the end of the text, or what goes on or ends the list or object it is in. -/
def Ends (rest : List Char) : Prop := ∀ c ∈ rest.head?, c = ',' ∨ c = ']' ∨ c = '\x7d'

namespace Cursor

theorem rest_advance {cursor : Cursor} {c : Char} {rest : List Char} (h : cursor.rest = c :: rest) :
    cursor.advance.rest = rest := by
  unfold advance
  rw [h]
  split
  · next heq => cases heq
  · next heq => cases heq; rfl
  · next heq => cases heq; rfl

theorem rest_skip (cursor : Cursor) (count : Nat) : (cursor.skip count).rest = cursor.rest.drop count := by
  induction count generalizing cursor with
  | zero => rfl
  | succ count ih =>
    rw [skip, ih]
    cases hrest : cursor.rest with
    | nil => simp [advance, hrest]
    | cons c rest => rw [rest_advance hrest, List.drop_succ_cons]

/-- Where no blank is ahead, none is skipped. -/
theorem skipBlanks_of_cons {cursor : Cursor} {c : Char} {rest : List Char} (h : cursor.rest = c :: rest)
    (mark : isBlank c = false) : cursor.skipBlanks = cursor := by
  rw [skipBlanks, h, List.takeWhile_cons_of_neg (by simp [mark])]
  rfl

theorem skipBlanks_of_nil {cursor : Cursor} (h : cursor.rest = []) : cursor.skipBlanks = cursor := by
  rw [skipBlanks, h]
  rfl

end Cursor

/-! ## Numbers -/

/-- Only zero begins with the digit zero. -/
theorem toDigits_ne_zero_cons {n : Nat} (pos : 0 < n) (digits : List Char) :
    Nat.toDigits 10 n ≠ '0' :: digits := by
  induction n using Nat.strongRecOn generalizing digits with
  | ind n ih =>
    rcases Nat.lt_or_ge n 10 with hlt | hge
    · rw [Nat.toDigits_of_lt_base hlt]
      intro heq
      have hzero : n.digitChar.toNat = '0'.toNat := congrArg Char.toNat (List.cons.inj heq).1
      rw [Nat.toNat_digitChar_of_lt_ten hlt] at hzero
      have hcode : '0'.toNat = 48 := rfl
      omega
    · -- the digits begin as those of a tenth of the number
      rw [Nat.toDigits_of_base_le (by decide) hge]
      obtain ⟨c, more, hcons⟩ := List.exists_cons_of_ne_nil (Nat.toDigits_ne_nil (n := n / 10) (b := 10))
      rw [hcons, List.cons_append]
      intro heq
      exact ih (n / 10) (by omega) (by omega) more (hcons.trans (by rw [(List.cons.inj heq).1]))

theorem ofDigits_toDigits (n : Nat) : ofDigits (Nat.toDigits 10 n) = n := Nat.ofDigitChars_ten_toDigits

theorem isDigit_of_mem_toDigits {n : Nat} {c : Char} (h : c ∈ Nat.toDigits 10 n) : c.isDigit = true :=
  Nat.isDigit_of_mem_toDigits (by decide) (by decide) h

theorem toDigits_eq_cons (n : Nat) : ∃ c more, Nat.toDigits 10 n = c :: more ∧ c.isDigit = true := by
  obtain ⟨c, more, hcons⟩ := List.exists_cons_of_ne_nil (Nat.toDigits_ne_nil (n := n) (b := 10))
  exact ⟨c, more, hcons, isDigit_of_mem_toDigits (hcons ▸ List.mem_cons_self)⟩

/-- What may follow a value does not go on with a number. -/
theorem Ends.cases {rest : List Char} (h : Ends rest) :
    rest = [] ∨ ∃ c more, rest = c :: more ∧ c.isDigit = false ∧ c ≠ '.' ∧ c ≠ 'e' ∧ c ≠ 'E' := by
  cases rest with
  | nil => exact .inl rfl
  | cons c more =>
    right
    rcases h c rfl with rfl | rfl | rfl
    all_goals exact ⟨_, _, rfl, by decide, by decide, by decide, by decide⟩

theorem Ends.takeWhile {rest : List Char} (h : Ends rest) : rest.takeWhile Char.isDigit = [] := by
  rcases h.cases with rfl | ⟨c, more, rfl, hc, -⟩
  · rfl
  · simp [hc]

theorem takeDigits_append {cursor : Cursor} {digits rest : List Char} (h : cursor.rest = digits ++ rest)
    (all : ∀ c ∈ digits, c.isDigit = true) (stops : rest.takeWhile Char.isDigit = []) :
    takeDigits cursor = (digits, cursor.skip digits.length) ∧ (cursor.skip digits.length).rest = rest := by
  refine ⟨?_, by rw [Cursor.rest_skip, h, List.drop_left]⟩
  rw [takeDigits, h, List.takeWhile_append_of_pos all, stops, List.append_nil]

/-- The digits before a point or an end are those of a whole number, with no zero before them. -/
theorem whole_digits {cursor : Cursor} {n : Nat} {rest : List Char} (h : cursor.rest = Nat.toDigits 10 n ++ rest)
    (stops : rest.takeWhile Char.isDigit = []) :
    ∃ c more, cursor.rest = c :: more ∧ c.isDigit = true ∧
      ¬ (c = '0' ∧ (more.head?.any Char.isDigit) = true) := by
  obtain ⟨c, more, hcons, hdigit⟩ := toDigits_eq_cons n
  refine ⟨c, more ++ rest, by rw [h, hcons, List.cons_append], hdigit, ?_⟩
  rintro ⟨rfl, hmore⟩
  have hn : n = 0 := Nat.eq_zero_of_not_pos fun pos => toDigits_ne_zero_cons pos more hcons
  subst hn
  cases hcons
  cases rest with
  | nil => cases hmore
  | cons d rest =>
    have hd : d.isDigit = true := hmore
    rw [List.takeWhile_cons_of_pos hd] at stops
    cases stops

/-- A whole number is read up to where a value may end. -/
theorem readNumber_toDigits {cursor : Cursor} {n : Nat} {rest : List Char} (negative : Bool)
    (h : cursor.rest = Nat.toDigits 10 n ++ rest) (ends : Ends rest)
    (word : if negative then 0 < n ∧ n ≤ Int64.minValue.toInt.natAbs else n < UInt64.size) :
    Takes (readNumber cursor negative) (.int (if negative then -(n : Int) else n)) rest := by
  obtain ⟨c, more, hrest, hdigit, hzero⟩ := whole_digits h ends.takeWhile
  obtain ⟨htake, hafter⟩ := takeDigits_append h (fun c => isDigit_of_mem_toDigits) ends.takeWhile
  refine ⟨cursor.skip (Nat.toDigits 10 n).length, ?_, hafter⟩
  unfold readNumber
  rw [hrest]
  dsimp only
  rw [if_neg (by simp [hdigit]), if_neg hzero, htake]
  dsimp only
  rw [hafter, ofDigits_toDigits]
  have hword (after : Cursor) :
      (if negative = true then
        if n = 0 ∨ Int64.minValue.toInt.natAbs < n then floatValue after true n 0
        else .ok (Json.int (-(n : Int)), after)
      else if UInt64.size ≤ n then floatValue after false n 0 else .ok (Json.int n, after))
        = .ok (Json.int (if negative = true then -(n : Int) else n), after) := by
    cases negative with
    | true =>
      obtain ⟨hpos, hle⟩ := word
      simp only [if_true]
      rw [if_neg (by omega)]
    | false =>
      have hlt : n < UInt64.size := word
      simp only [Bool.false_eq_true, if_false]
      rw [if_neg (by omega)]
  rcases ends.cases with rfl | ⟨d, after, rfl, -, hpoint, he, hE⟩
  · exact hword _
  · split
    · next heq => exact absurd (List.cons.inj heq).1 hpoint
    · next heq => exact absurd (List.cons.inj heq).1 he
    · next heq => exact absurd (List.cons.inj heq).1 hE
    · exact hword _

/-- A number with places is read as the text of the double nearest to it. -/
theorem readNumber_places {cursor : Cursor} {n : Nat} {places rest : List Char} {text : String} (negative : Bool)
    (h : cursor.rest = Nat.toDigits 10 n ++ '.' :: (places ++ rest)) (there : places ≠ [])
    (all : ∀ c ∈ places, c.isDigit = true) (ends : Ends rest)
    (value : ∀ after, floatValue after negative (ofDigits (Nat.toDigits 10 n ++ places)) (-(places.length : Int))
      = .ok (.float text, after)) :
    Takes (readNumber cursor negative) (.float text) rest := by
  have hpoint : ('.' :: (places ++ rest)).takeWhile Char.isDigit = [] := rfl
  obtain ⟨c, more, hrest, hdigit, hzero⟩ := whole_digits h hpoint
  obtain ⟨htake, hafter⟩ := takeDigits_append h (fun c => isDigit_of_mem_toDigits) hpoint
  obtain ⟨hplaces, hend⟩ := takeDigits_append (Cursor.rest_advance hafter) all ends.takeWhile
  refine ⟨_, ?_, hend⟩
  unfold readNumber
  rw [hrest]
  dsimp only
  rw [if_neg (by simp [hdigit]), if_neg hzero, htake]
  dsimp only
  rw [hafter]
  split
  case h_1 =>
    rw [hplaces]
    dsimp only
    rw [if_neg there, hend]
    rcases ends.cases with rfl | ⟨d, after, rfl, -, -, he, hE⟩
    · exact value _
    · split
      · next heq => exact absurd (List.cons.inj heq).1 he
      · next heq => exact absurd (List.cons.inj heq).1 hE
      · exact value _
  case h_2 heq => exact absurd (List.cons.inj heq).1 (by decide)
  case h_3 heq => exact absurd (List.cons.inj heq).1 (by decide)
  case h_4 hno _ _ => exact absurd rfl (hno _)

/-! ## Strings -/

theorem hexValue?_hexDigit : ∀ n < 16, hexValue? (hexDigit n) = some n := by decide

/-- The escape of a control character is read as that character. -/
theorem readUnicode_hexDigit {cursor : Cursor} {c : Char} {rest : List Char} (control : c.toNat < 0x20)
    (h : cursor.rest = '0' :: '0' :: hexDigit (c.toNat / 16) :: hexDigit (c.toNat % 16) :: rest) :
    Takes (readUnicode cursor) c rest := by
  have hzero : hexValue? '0' = some 0 := rfl
  have hhigh := hexValue?_hexDigit (c.toNat / 16) (by omega)
  have hlow := hexValue?_hexDigit (c.toNat % 16) (by omega)
  have hsum : 0 * 4096 + 0 * 256 + c.toNat / 16 * 16 + c.toNat % 16 = c.toNat := by omega
  have hhex : readHex cursor = .ok (c.toNat, cursor.skip 4) := by
    unfold readHex
    rw [h]
    simp only [hzero, hhigh, hlow, hsum]
  refine ⟨cursor.skip 4, ?_, by rw [Cursor.rest_skip, h]; rfl⟩
  unfold readUnicode
  rw [hhex]
  simp only [bind, Except.bind]
  rw [if_neg (by omega), if_neg (by omega), Char.ofNat_toNat]

/-- A character of a string is read from its escape. -/
theorem readString_escapeChar {cursor : Cursor} {c : Char} {rest : List Char}
    (h : cursor.rest = escapeChar c ++ rest) (fuel : Nat) (done : List Char) :
    ∃ after, readString (fuel + 1) cursor done = readString fuel after (c :: done) ∧ after.rest = rest := by
  have hletter {letter : Char} (hrest : cursor.rest = '\\' :: letter :: rest) :
      cursor.advance.rest = letter :: rest ∧ cursor.advance.advance.rest = rest :=
    ⟨Cursor.rest_advance hrest, Cursor.rest_advance (Cursor.rest_advance hrest)⟩
  unfold escapeChar at h
  split at h
  case h_8 c hquote hback _ _ _ _ _ =>
    split at h
    case isTrue hcontrol =>
      obtain ⟨hu, hdigits⟩ : cursor.advance.rest = 'u' :: _ ∧ cursor.advance.advance.rest = _ :=
        ⟨Cursor.rest_advance h, Cursor.rest_advance (Cursor.rest_advance h)⟩
      obtain ⟨after, hread, hafter⟩ := readUnicode_hexDigit hcontrol hdigits
      refine ⟨after, ?_, hafter⟩
      rw [readString, h]
      simp only [List.cons_append, hu, hread]
    case isFalse hcontrol =>
      refine ⟨cursor.advance, ?_, Cursor.rest_advance h⟩
      rw [readString, h]
      split
      · next heq => cases heq
      · next heq => exact absurd (List.cons.inj heq).1 hquote
      · next heq => exact absurd (List.cons.inj heq).1 hback
      · next heq =>
        cases heq
        exact if_neg hcontrol
  all_goals
    obtain ⟨hnext, hafter⟩ := hletter h
    refine ⟨_, ?_, hafter⟩
    rw [readString, h]
    simp only [List.cons_append, hnext]

/-- A string is read up to its closing quote. -/
theorem readString_flatMap {text rest : List Char} {fuel : Nat} {cursor : Cursor}
    (h : cursor.rest = text.flatMap escapeChar ++ '"' :: rest) (enough : text.length < fuel) (done : List Char) :
    Takes (readString fuel cursor done) (String.ofList (done.reverse ++ text)) rest := by
  induction text generalizing fuel cursor done with
  | nil =>
    obtain ⟨fuel, rfl⟩ := Nat.exists_eq_add_one_of_ne_zero (Nat.ne_zero_of_lt enough)
    rw [List.flatMap_nil, List.nil_append] at h
    refine ⟨cursor.advance, ?_, Cursor.rest_advance h⟩
    rw [readString, h, List.append_nil]
    rfl
  | cons c text ih =>
    obtain ⟨fuel, rfl⟩ := Nat.exists_eq_add_one_of_ne_zero (Nat.ne_zero_of_lt enough)
    rw [List.flatMap_cons, List.append_assoc] at h
    obtain ⟨after, hread, hafter⟩ := readString_escapeChar h fuel done
    have htail := ih hafter (Nat.lt_of_succ_lt_succ enough) (c :: done)
    rw [List.reverse_cons, List.append_assoc, List.singleton_append] at htail
    rw [hread]
    exact htail

theorem toList_quote (text : String) :
    (quote text).toList = '"' :: (text.toList.flatMap escapeChar ++ ['"']) := by
  have hmark : "\"".toList = ['"'] := rfl
  simp only [quote, String.toList_append, String.toList_ofList, hmark, List.cons_append, List.nil_append]

theorem length_le_flatMap_escapeChar (text : List Char) : text.length ≤ (text.flatMap escapeChar).length := by
  induction text with
  | nil => exact Nat.zero_le _
  | cons c text ih =>
    have hone : 1 ≤ (escapeChar c).length := by
      unfold escapeChar
      split <;> (try split) <;> simp
    rw [List.flatMap_cons, List.length_append, List.length_cons]
    omega

/-- What was put in quotes is read, its opening quote taken already. -/
theorem readString_quote {cursor : Cursor} {text : String} {rest : List Char} {fuel : Nat}
    (h : cursor.rest = (quote text).toList ++ rest) (enough : cursor.rest.length ≤ fuel) :
    Takes (readString fuel cursor.advance []) text rest := by
  have hlength := length_le_flatMap_escapeChar text.toList
  rw [toList_quote, List.cons_append, List.append_assoc, List.singleton_append] at h
  rw [h, List.length_cons, List.length_append, List.length_cons] at enough
  have hread := readString_flatMap (Cursor.rest_advance h) (by omega : text.toList.length < fuel) []
  rwa [List.reverse_nil, List.nil_append, String.ofList_toList] at hread

/-! ## Values -/

/-- The text of a floating point number is read as that number, wherever it stands. -/
def FloatReads (text : String) : Prop :=
  (∃ c more, text.toList = c :: more ∧ (c = '-' ∨ c.isDigit = true)) ∧
    ∀ (fuel depth : Nat) (cursor : Cursor) (rest : List Char), cursor.rest = text.toList ++ rest → Ends rest →
      Takes (readValue (fuel + 1) depth cursor) (.float text) rest

/-- A value that text can carry with so many levels of lists and objects: its numbers are words or floating
point numbers that are read, and members are in key order. -/
def Legible : Nat → Json → Prop
  | _, .null | _, .bool _ | _, .str _ => True
  | _, .int n => Int64.minValue.toInt ≤ n ∧ n < UInt64.size
  | _, .float text => FloatReads text
  | 0, .arr _ | 0, .obj _ => False
  | levels + 1, .arr items => ∀ item ∈ items, Legible levels item
  | levels + 1, .obj fields => fields.Pairwise (·.1 < ·.1) ∧ ∀ pair ∈ fields, Legible levels pair.2

theorem readWord_append {cursor : Cursor} {word rest : List Char} (value : Json)
    (h : cursor.rest = word ++ rest) : Takes (readWord cursor word value) value rest := by
  induction word generalizing cursor with
  | nil => exact ⟨cursor, rfl, h⟩
  | cons c word ih =>
    rw [List.cons_append] at h
    rw [readWord, h]
    dsimp only
    rw [if_pos rfl]
    exact ih (Cursor.rest_advance h)

theorem toList_toString_nat (n : Nat) : (toString n).toList = Nat.toDigits 10 n := Nat.toList_repr

theorem toList_negSucc (n : Nat) : (compact (.int (.negSucc n))).toList = '-' :: Nat.toDigits 10 (n + 1) := by
  have hmark : "-".toList = ['-'] := rfl
  show ("-" ++ toString (n + 1)).toList = _
  rw [String.toList_append, toList_toString_nat, hmark, List.singleton_append]

theorem not_isBlank_of_isDigit {c : Char} (h : c.isDigit = true) : Cursor.isBlank c = false := by
  have hne (mark : Char) (hmark : mark.isDigit = false) : c ≠ mark := by
    rintro rfl
    exact absurd h (by simp [hmark])
  simp only [Cursor.isBlank, hne ' ' rfl, hne '\n' rfl, hne '\t' rfl, hne '\r' rfl, or_self, decide_false]

/-- A value that begins with a digit is a number. -/
theorem readValue_of_isDigit {cursor : Cursor} {c : Char} {more : List Char} (fuel depth : Nat)
    (h : cursor.rest = c :: more) (digit : c.isDigit = true) :
    readValue (fuel + 1) depth cursor = readNumber cursor false := by
  rw [readValue, Cursor.skipBlanks_of_cons h (not_isBlank_of_isDigit digit)]
  split
  case h_9 heq =>
    cases h.symm.trans heq
    exact if_pos digit
  case h_1 heq => cases h.symm.trans heq
  -- no other value begins with a digit
  all_goals
    next heq =>
      cases h.symm.trans heq
      exact absurd digit (by decide)

/-- A whole number of a word is read. -/
theorem readValue_int {n : Int} {cursor : Cursor} {rest : List Char} (fuel depth : Nat)
    (word : Int64.minValue.toInt ≤ n ∧ n < UInt64.size) (h : cursor.rest = (compact (.int n)).toList ++ rest)
    (ends : Ends rest) : Takes (readValue (fuel + 1) depth cursor) (.int n) rest := by
  have hlow : Int64.minValue.toInt = -9223372036854775808 := by decide
  cases n with
  | ofNat n =>
    have hdigits : cursor.rest = Nat.toDigits 10 n ++ rest := by
      rw [h]
      exact congrArg (· ++ rest) (toList_toString_nat n)
    obtain ⟨c, more, hcons, hdigit⟩ := toDigits_eq_cons n
    have hrest : cursor.rest = c :: (more ++ rest) := by rw [hdigits, hcons, List.cons_append]
    rw [readValue_of_isDigit fuel depth hrest hdigit]
    exact readNumber_toDigits false hdigits ends (Int.ofNat_lt.mp word.2)
  | negSucc n =>
    have hrest : cursor.rest = '-' :: (Nat.toDigits 10 (n + 1) ++ rest) := by
      rw [h, toList_negSucc, List.cons_append]
    have hread : readValue (fuel + 1) depth cursor = readNumber cursor.advance true := by
      rw [readValue, Cursor.skipBlanks_of_cons hrest rfl, hrest]
      rfl
    rw [hread]
    refine readNumber_toDigits true (Cursor.rest_advance hrest) ends ?_
    simp only [if_true]
    omega

/-- A number with places reads back if it is the text of the double nearest to it. -/
theorem floatReads_places {n : Nat} {places : List Char} {text : String}
    (h : text.toList = Nat.toDigits 10 n ++ '.' :: places) (there : places ≠ [])
    (all : ∀ c ∈ places, c.isDigit = true)
    (value : ∀ after, floatValue after false (ofDigits (Nat.toDigits 10 n ++ places)) (-(places.length : Int))
      = .ok (.float text, after)) : FloatReads text := by
  obtain ⟨c, more, hcons, hdigit⟩ := toDigits_eq_cons n
  refine ⟨⟨c, more ++ '.' :: places, by rw [h, hcons, List.cons_append], .inr hdigit⟩, ?_⟩
  intro fuel depth cursor rest hrest ends
  rw [h, List.append_assoc, List.cons_append] at hrest
  have hfirst : cursor.rest = c :: (more ++ '.' :: (places ++ rest)) := by rw [hrest, hcons, List.cons_append]
  rw [readValue_of_isDigit fuel depth hfirst hdigit]
  exact readNumber_places false hrest there all ends value

theorem floatReads_three_halves : FloatReads "1.5" := by
  have hplaces : ∀ c ∈ ['5'], c.isDigit = true := List.forall_mem_singleton.mpr rfl
  refine floatReads_places (n := 1) rfl (List.cons_ne_nil '5' []) hplaces fun after => ?_
  have htext : Decimal.textOfDecimal false 15 (-1) = some "1.5" := by decide +kernel
  show floatValue after false 15 (-1) = _
  unfold floatValue
  dsimp only
  rw [if_neg (by decide), if_neg (by decide), htext]

/-- A string is read. -/
theorem readValue_str {text : String} {cursor : Cursor} {rest : List Char} (fuel depth : Nat)
    (h : cursor.rest = (compact (.str text)).toList ++ rest) :
    Takes (readValue (fuel + 1) depth cursor) (.str text) rest := by
  have hcons : cursor.rest = '"' :: ((text.toList.flatMap escapeChar ++ ['"']) ++ rest) := by
    rw [h, compact, toList_quote, List.cons_append]
  obtain ⟨after, hread, hafter⟩ := readString_quote (by rw [h, compact]) (Nat.le_refl cursor.rest.length)
  refine ⟨after, ?_, hafter⟩
  rw [hcons, List.length_cons] at hread
  rw [readValue, Cursor.skipBlanks_of_cons hcons rfl]
  simp only [hcons]
  rw [hread]

/-! ## Lists -/

section

variable {levels fuel depth : Nat} {cursor after : Cursor} {rest : List Char}

/-- The values that text carries with so many levels are read. For each character left there is fuel for two steps,
one of a loop over items or members and one of a value in it. -/
def Reads (levels : Nat) : Prop :=
  ∀ {value : Json} (fuel depth : Nat) {cursor : Cursor} {rest : List Char}, Legible levels value →
    cursor.rest = value.compact.toList ++ rest → Ends rest → 2 * cursor.rest.length ≤ fuel → levels < depth →
      Takes (readValue fuel depth cursor) value rest

theorem toList_arr (items : List Json) :
    (compact (.arr items)).toList = '[' :: ((compactItems items).toList ++ [']']) := by
  have hmarks : "[".toList = ['['] ∧ "]".toList = [']'] := ⟨rfl, rfl⟩
  simp only [compact, String.toList_append, hmarks, List.cons_append, List.nil_append]

theorem toList_obj (fields : Fields) :
    (compact (.obj fields)).toList = '\x7b' :: ((compactFields fields).toList ++ ['\x7d']) := by
  have hmarks : "\x7b".toList = ['\x7b'] ∧ "\x7d".toList = ['\x7d'] := ⟨rfl, rfl⟩
  simp only [compact, String.toList_append, hmarks, List.cons_append, List.nil_append]

/-- The text of a value begins with a character that neither is blank nor ends a list. -/
theorem compact_eq_cons {value : Json} (h : Legible levels value) :
    ∃ c more, value.compact.toList = c :: more ∧ Cursor.isBlank c = false ∧ c ≠ ']' := by
  have number {c : Char} (hc : c.isDigit = true) : Cursor.isBlank c = false ∧ c ≠ ']' := by
    refine ⟨not_isBlank_of_isDigit hc, ?_⟩
    rintro rfl
    exact absurd hc (by decide)
  cases value with
  | null => exact ⟨'n', _, rfl, by decide, by decide⟩
  | bool b => cases b <;> exact ⟨_, _, rfl, by decide, by decide⟩
  | int n =>
    cases n with
    | ofNat n =>
      obtain ⟨c, more, hcons, hdigit⟩ := toDigits_eq_cons n
      exact ⟨c, more, (toList_toString_nat n).trans hcons, number hdigit⟩
    | negSucc n => exact ⟨'-', _, toList_negSucc n, by decide, by decide⟩
  | float text =>
    have hfloat : FloatReads text := by cases levels <;> exact h
    obtain ⟨⟨c, more, hcons, rfl | hc⟩, -⟩ := hfloat
    · exact ⟨'-', more, hcons, by decide, by decide⟩
    · exact ⟨c, more, hcons, number hc⟩
  | str text => exact ⟨'"', _, toList_quote text, by decide, by decide⟩
  | arr items => exact ⟨'[', _, toList_arr items, by decide, by decide⟩
  | obj fields => exact ⟨'\x7b', _, toList_obj fields, by decide, by decide⟩

/-- The items of a list after the first, each after a comma. -/
def tailText (items : List Json) : List Char := items.flatMap fun item => ',' :: item.compact.toList

theorem toList_compactItems (item : Json) (items : List Json) :
    (compactItems (item :: items)).toList = item.compact.toList ++ tailText items := by
  induction items generalizing item with
  | nil => simp [compactItems, tailText]
  | cons next items ih =>
    have hcomma : ",".toList = [','] := rfl
    rw [compactItems, String.toList_append, String.toList_append, ih next, hcomma, List.append_assoc]
    · rfl
    · simp

theorem ends_tailText (items : List Json) (rest : List Char) : Ends (tailText items ++ ']' :: rest) := by
  intro c hc
  cases items with
  | nil => cases hc; exact .inr (.inl rfl)
  | cons item items => cases hc; exact .inl rfl

theorem readItems_first {c : Char} {more : List Char} {item : Json} (h : cursor.rest = c :: more)
    (mark : Cursor.isBlank c = false) (goes : c ≠ ']')
    (hread : readValue fuel depth cursor = .ok (item, after)) (done : List Json) :
    readItems (fuel + 1) depth cursor true done = readItems fuel depth after false (item :: done) := by
  rw [readItems, Cursor.skipBlanks_of_cons h mark]
  split
  · next heq => cases h.symm.trans heq
  · next heq =>
    cases h.symm.trans heq
    exact absurd rfl goes
  · dsimp only
    rw [if_pos rfl, hread]

theorem readItems_comma {c : Char} {more : List Char} {item : Json} (h : cursor.rest = ',' :: c :: more)
    (mark : Cursor.isBlank c = false) (goes : c ≠ ']')
    (hread : readValue fuel depth cursor.advance = .ok (item, after)) (done : List Json) :
    readItems (fuel + 1) depth cursor false done = readItems fuel depth after false (item :: done) := by
  have hahead := Cursor.rest_advance h
  rw [readItems, Cursor.skipBlanks_of_cons h rfl]
  split
  · next heq => cases h.symm.trans heq
  · next heq => exact absurd (List.cons.inj (h.symm.trans heq)).1 (by decide)
  · next heq =>
    cases h.symm.trans heq
    dsimp only
    rw [if_neg Bool.false_ne_true, if_pos rfl, Cursor.skipBlanks_of_cons hahead mark]
    split
    · next heq => cases hahead.symm.trans heq
    · next heq =>
      cases hahead.symm.trans heq
      exact absurd rfl goes
    · rw [hread]

/-- Items are read one by one, up to the end of the list. -/
theorem readItems_tailText (reads : Reads levels) {items : List Json}
    (legible : ∀ item ∈ items, Legible levels item) (h : cursor.rest = tailText items ++ ']' :: rest)
    (enough : 2 * cursor.rest.length + 1 ≤ fuel)
    (deep : levels < depth) (done : List Json) :
    Takes (readItems fuel depth cursor false done) (.arr (done.reverse ++ items)) rest := by
  induction items generalizing fuel cursor done with
  | nil =>
    obtain ⟨fuel, rfl⟩ := Nat.exists_eq_add_one_of_ne_zero (show fuel ≠ 0 by omega)
    have hrest : cursor.rest = ']' :: rest := h
    refine ⟨cursor.advance, ?_, Cursor.rest_advance hrest⟩
    rw [readItems, Cursor.skipBlanks_of_cons hrest rfl]
    simp only [hrest, List.append_nil]
  | cons item items ih =>
    obtain ⟨fuel, rfl⟩ := Nat.exists_eq_add_one_of_ne_zero (show fuel ≠ 0 by omega)
    obtain ⟨hitem, hitems⟩ := List.forall_mem_cons.mp legible
    have hrest : cursor.rest = ',' :: (item.compact.toList ++ (tailText items ++ ']' :: rest)) := by
      rw [h]
      simp [tailText]
    have hahead := Cursor.rest_advance hrest
    obtain ⟨c, more, hcons, hmark, hgoes⟩ := compact_eq_cons hitem
    rw [hrest, List.length_cons] at enough
    obtain ⟨after, hread, hafter⟩ := reads fuel depth hitem hahead (ends_tailText items rest)
      (by rw [hahead]; omega) deep
    rw [hcons, List.cons_append] at hrest
    rw [readItems_comma hrest hmark hgoes hread]
    have hless : after.rest.length < (item.compact.toList ++ (tailText items ++ ']' :: rest)).length := by
      simp only [hafter, hcons, List.length_append, List.length_cons]
      omega
    have hstep : 2 * after.rest.length + 1 ≤ fuel := by omega
    have htail := ih hitems hafter hstep (item :: done)
    rwa [List.reverse_cons, List.append_assoc, List.singleton_append] at htail

/-- A list whose items are read is read. -/
theorem readValue_arr (reads : Reads levels) {items : List Json} (legible : ∀ item ∈ items, Legible levels item)
    (h : cursor.rest = (compact (.arr items)).toList ++ rest) (enough : 2 * cursor.rest.length ≤ fuel)
    (deep : levels + 1 < depth) : Takes (readValue fuel depth cursor) (.arr items) rest := by
  rw [toList_arr, List.cons_append, List.append_assoc, List.singleton_append] at h
  have hahead := Cursor.rest_advance h
  rw [h, List.length_cons] at enough
  obtain ⟨fuel, rfl⟩ := Nat.exists_eq_add_one_of_ne_zero (show fuel ≠ 0 by omega)
  have hopen : readValue (fuel + 1) depth cursor = readItems fuel (depth - 1) cursor.advance true [] := by
    rw [readValue, Cursor.skipBlanks_of_cons h rfl, h]
    exact if_neg (by omega)
  rw [hopen]
  cases items with
  | nil =>
    obtain ⟨fuel, rfl⟩ := Nat.exists_eq_add_one_of_ne_zero (show fuel ≠ 0 by omega)
    refine ⟨cursor.advance.advance, ?_, Cursor.rest_advance hahead⟩
    rw [readItems, Cursor.skipBlanks_of_cons hahead rfl, hahead]
    rfl
  | cons item items =>
    obtain ⟨fuel, rfl⟩ := Nat.exists_eq_add_one_of_ne_zero (show fuel ≠ 0 by omega)
    obtain ⟨hitem, hitems⟩ := List.forall_mem_cons.mp legible
    rw [toList_compactItems, List.append_assoc] at hahead enough
    obtain ⟨c, more, hcons, hmark, hgoes⟩ := compact_eq_cons hitem
    obtain ⟨after, hread, hafter⟩ := reads fuel (depth - 1) hitem hahead
      (ends_tailText items rest) (by rw [hahead]; omega) (by omega)
    have hless : after.rest.length < (item.compact.toList ++ (tailText items ++ ']' :: rest)).length := by
      simp only [hafter, hcons, List.length_append, List.length_cons]
      omega
    rw [hcons, List.cons_append] at hahead
    rw [readItems_first hahead hmark hgoes hread]
    exact readItems_tailText reads hitems hafter (by omega) (by omega) [item]

/-! ## Objects -/

theorem insert_of_forall_lt {done : Fields} {key : String} (value : Json) (h : ∀ pair ∈ done, pair.1 < key) :
    done.insert key value = done ++ [(key, value)] := by
  induction done with
  | nil => rfl
  | cons pair done ih =>
    obtain ⟨hpair, hdone⟩ := List.forall_mem_cons.mp h
    have hne : key ≠ pair.1 := fun heq => String.lt_irrefl _ (heq ▸ hpair)
    have hnot : ¬ key < pair.1 := fun hlt => String.lt_irrefl _ (String.lt_trans hlt hpair)
    rw [Fields.insert, if_neg hne, if_neg hnot, ih hdone, List.cons_append]

/-- The text of a member. -/
def memberText (pair : String × Json) : List Char := (quote pair.1).toList ++ ':' :: pair.2.compact.toList

/-- The members of an object after the first, each after a comma. -/
def tailMembers (fields : Fields) : List Char := fields.flatMap fun pair => ',' :: memberText pair

theorem toList_compactFields (pair : String × Json) (fields : Fields) :
    (compactFields (pair :: fields)).toList = memberText pair ++ tailMembers fields := by
  have hmarks : ":".toList = [':'] ∧ ",".toList = [','] := ⟨rfl, rfl⟩
  induction fields generalizing pair with
  | nil => simp [compactFields, tailMembers, memberText, hmarks]
  | cons next fields ih =>
    rw [compactFields]
    · simp [ih next, hmarks, tailMembers, memberText]
    · simp

theorem ends_tailMembers (fields : Fields) (rest : List Char) : Ends (tailMembers fields ++ '\x7d' :: rest) := by
  intro c hc
  cases fields with
  | nil => cases hc; exact .inr (.inr rfl)
  | cons pair fields => cases hc; exact .inl rfl

/-- A member is read: its name, a colon and its value. -/
structure MemberRead (fuel depth : Nat) (cursor : Cursor) (pair : String × Json) (after : Cursor) : Prop where
  opening : ∃ more, cursor.rest = '"' :: more
  value : ∃ colon more, readString (cursor.rest.length + 1) cursor.advance [] = .ok (pair.1, colon) ∧
    colon.rest = ':' :: more ∧ readValue fuel depth colon.advance = .ok (pair.2, after)

theorem exists_memberRead (fuel depth : Nat) (reads : Reads levels) {pair : String × Json}
    (legible : Legible levels pair.2) (h : cursor.rest = memberText pair ++ rest) (ends : Ends rest)
    (enough : 2 * cursor.rest.length ≤ fuel) (deep : levels < depth) :
    ∃ after, MemberRead fuel depth cursor pair after ∧ after.rest = rest := by
  rw [memberText, List.append_assoc, List.cons_append] at h
  obtain ⟨colon, hname, hcolon⟩ := readString_quote h (Nat.le_succ _)
  have hvalue := Cursor.rest_advance hcolon
  rw [h, List.length_append, List.length_cons] at enough
  obtain ⟨after, hread, hafter⟩ := reads fuel depth legible hvalue ends (by rw [hvalue]; omega) deep
  rw [toList_quote, List.cons_append] at h
  exact ⟨after, ⟨⟨_, h⟩, colon, _, hname, hcolon, hread⟩, hafter⟩

theorem readMembers_first {pair : String × Json} (h : MemberRead fuel depth cursor pair after) (done : Fields) :
    readMembers (fuel + 1) depth cursor true done
      = readMembers fuel depth after false (done.insert pair.1 pair.2) := by
  obtain ⟨⟨_, hquote⟩, colon, more, hname, hcolon, hvalue⟩ := h
  rw [readMembers, Cursor.skipBlanks_of_cons hquote rfl]
  simp only [hname, Cursor.skipBlanks_of_cons hcolon rfl, hcolon, hvalue]
  rw [hquote]
  rfl

theorem readMembers_comma {pair : String × Json} {more : List Char} (comma : cursor.rest = ',' :: more)
    (h : MemberRead fuel depth cursor.advance pair after) (done : Fields) :
    readMembers (fuel + 1) depth cursor false done
      = readMembers fuel depth after false (done.insert pair.1 pair.2) := by
  obtain ⟨⟨_, hquote⟩, colon, more, hname, hcolon, hvalue⟩ := h
  rw [readMembers, Cursor.skipBlanks_of_cons comma rfl, comma]
  simp only [hname, Cursor.skipBlanks_of_cons hcolon rfl, hcolon, hvalue, Cursor.skipBlanks_of_cons hquote rfl]
  rw [hquote]
  rfl

/-- Members are read one by one, up to the end of the object; in key order each comes after those before it. -/
theorem readMembers_tailMembers (reads : Reads levels) {fields : Fields}
    (legible : ∀ pair ∈ fields, Legible levels pair.2)
    (h : cursor.rest = tailMembers fields ++ '\x7d' :: rest) (enough : 2 * cursor.rest.length + 1 ≤ fuel)
    (deep : levels < depth) {done : Fields} (ordered : (done ++ fields).Pairwise (·.1 < ·.1)) :
    Takes (readMembers fuel depth cursor false done) (.obj (done ++ fields)) rest := by
  induction fields generalizing fuel cursor done with
  | nil =>
    obtain ⟨fuel, rfl⟩ := Nat.exists_eq_add_one_of_ne_zero (show fuel ≠ 0 by omega)
    have hrest : cursor.rest = '\x7d' :: rest := h
    refine ⟨cursor.advance, ?_, Cursor.rest_advance hrest⟩
    rw [readMembers, Cursor.skipBlanks_of_cons hrest rfl, hrest, List.append_nil]
    rfl
  | cons pair fields ih =>
    obtain ⟨fuel, rfl⟩ := Nat.exists_eq_add_one_of_ne_zero (show fuel ≠ 0 by omega)
    obtain ⟨hpair, hfields⟩ := List.forall_mem_cons.mp legible
    have hrest : cursor.rest = ',' :: (memberText pair ++ (tailMembers fields ++ '\x7d' :: rest)) := by
      rw [h]
      simp [tailMembers]
    have hahead := Cursor.rest_advance hrest
    rw [hrest, List.length_cons] at enough
    obtain ⟨after, hread, hafter⟩ := exists_memberRead fuel depth reads hpair hahead (ends_tailMembers fields rest)
      (by rw [hahead]; omega) deep
    have hbefore : ∀ other ∈ done, other.1 < pair.1 := fun other hother =>
      (List.pairwise_append.mp ordered).2.2 other hother pair List.mem_cons_self
    rw [readMembers_comma hrest hread, insert_of_forall_lt _ hbefore]
    have hless : after.rest.length < (memberText pair ++ (tailMembers fields ++ '\x7d' :: rest)).length := by
      simp only [hafter, memberText, List.length_append, List.length_cons]
      omega
    have hwhole : done ++ pair :: fields = done ++ [pair] ++ fields := List.append_cons done pair fields
    rw [hwhole] at ordered ⊢
    have hstep : 2 * after.rest.length + 1 ≤ fuel := by omega
    exact ih hfields hafter hstep ordered

/-- An object whose members are read is read. -/
theorem readValue_obj (reads : Reads levels) {fields : Fields} (ordered : fields.Pairwise (·.1 < ·.1))
    (legible : ∀ pair ∈ fields, Legible levels pair.2)
    (h : cursor.rest = (compact (.obj fields)).toList ++ rest) (enough : 2 * cursor.rest.length ≤ fuel)
    (deep : levels + 1 < depth) : Takes (readValue fuel depth cursor) (.obj fields) rest := by
  rw [toList_obj, List.cons_append, List.append_assoc, List.singleton_append] at h
  have hahead := Cursor.rest_advance h
  rw [h, List.length_cons] at enough
  obtain ⟨fuel, rfl⟩ := Nat.exists_eq_add_one_of_ne_zero (show fuel ≠ 0 by omega)
  have hopen : readValue (fuel + 1) depth cursor = readMembers fuel (depth - 1) cursor.advance true [] := by
    rw [readValue, Cursor.skipBlanks_of_cons h rfl, h]
    exact if_neg (by omega)
  rw [hopen]
  cases fields with
  | nil =>
    obtain ⟨fuel, rfl⟩ := Nat.exists_eq_add_one_of_ne_zero (show fuel ≠ 0 by omega)
    refine ⟨cursor.advance.advance, ?_, Cursor.rest_advance hahead⟩
    rw [readMembers, Cursor.skipBlanks_of_cons hahead rfl, hahead]
    rfl
  | cons pair fields =>
    obtain ⟨fuel, rfl⟩ := Nat.exists_eq_add_one_of_ne_zero (show fuel ≠ 0 by omega)
    obtain ⟨hpair, hfields⟩ := List.forall_mem_cons.mp legible
    rw [toList_compactFields, List.append_assoc] at hahead enough
    obtain ⟨after, hread, hafter⟩ := exists_memberRead fuel (depth - 1) reads hpair hahead
      (ends_tailMembers fields rest) (by rw [hahead]; omega) (by omega)
    have hless : after.rest.length < (memberText pair ++ (tailMembers fields ++ '\x7d' :: rest)).length := by
      simp only [hafter, memberText, List.length_append, List.length_cons]
      omega
    rw [readMembers_first hread]
    have hall : ([pair] ++ fields).Pairwise (·.1 < ·.1) := ordered
    exact readMembers_tailMembers reads hfields hafter (by omega) (by omega) hall

end

/-! ## Texts -/

theorem reads_zero : Reads 0 := by
  intro value fuel depth cursor rest legible h ends enough deep
  obtain ⟨c, more, hcons, -, -⟩ := compact_eq_cons legible
  have hlength : cursor.rest.length ≠ 0 := by simp [h, hcons]
  obtain ⟨fuel, rfl⟩ := Nat.exists_eq_add_one_of_ne_zero (show fuel ≠ 0 by omega)
  -- a word is read after its first letter
  have word {c : Char} {letters : List Char} (hword : cursor.rest = c :: (letters ++ rest)) (value : Json) :
      Takes (readWord cursor.advance letters value) value rest :=
    readWord_append value (Cursor.rest_advance hword)
  cases value with
  | null =>
    have hrest : cursor.rest = 'n' :: (['u', 'l', 'l'] ++ rest) := h
    rw [readValue, Cursor.skipBlanks_of_cons hrest rfl, hrest]
    exact word hrest .null
  | bool b =>
    cases b with
    | true =>
      have hrest : cursor.rest = 't' :: (['r', 'u', 'e'] ++ rest) := h
      rw [readValue, Cursor.skipBlanks_of_cons hrest rfl, hrest]
      exact word hrest (.bool true)
    | false =>
      have hrest : cursor.rest = 'f' :: (['a', 'l', 's', 'e'] ++ rest) := h
      rw [readValue, Cursor.skipBlanks_of_cons hrest rfl, hrest]
      exact word hrest (.bool false)
  | int n => exact readValue_int fuel depth legible h ends
  | float text => exact legible.2 fuel depth cursor rest h ends
  | str text => exact readValue_str fuel depth h
  | arr items => exact legible.elim
  | obj fields => exact legible.elim

/-- What a value with so many levels is written as is read as that value. -/
theorem reads_of_legible (levels : Nat) : Reads levels := by
  induction levels with
  | zero => exact reads_zero
  | succ levels ih =>
    intro value fuel depth cursor rest legible h ends enough deep
    cases value with
    | arr items => exact readValue_arr ih legible h enough deep
    | obj fields => exact readValue_obj ih legible.1 legible.2 h enough deep
    | null | bool _ | int _ | float _ | str _ => exact reads_zero fuel depth legible h ends enough (by omega)

/-- The text of a value is read as that value, if no more levels are open than the reader takes. -/
theorem parse_compact {levels : Nat} {value : Json} (h : Legible levels value) (deep : levels < depthLimit) :
    parse value.compact = .ok value := by
  have hlength : (Cursor.start value.compact).rest.length = value.compact.length := String.length_toList
  have hread : Takes (readValue (2 * value.compact.length + 2) depthLimit (Cursor.start value.compact)) value [] :=
    reads_of_legible levels _ _ h (List.append_nil _).symm (fun _ h => nomatch h) (by omega) deep
  obtain ⟨after, hread, hafter⟩ := hread
  unfold parse
  rw [hread]
  simp only [bind, Except.bind, expectEnd, Cursor.skipBlanks_of_nil hafter, hafter]

end EventJournal.Json
