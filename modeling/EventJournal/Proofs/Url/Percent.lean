import EventJournal.Url.Percent

/-!
# Percent-encoding loses nothing

Whatever else a part of an address encodes, it has to encode the percent sign itself; then the text can be
read back from its encoded form, whether a character was encoded or not.

* `decodeBytes_encode` — decoding gives the bytes of the text back, and `decode?_encode` the text.
* `eq_of_decodeBytes` — so a text is known by what it decodes to.
* `not_mem_encode` — a character that is encoded does not show, unless it is a percent sign or a digit.
-/

namespace EventJournal.Percent

/-! ## Bytes -/

theorem digitValue?_digit : ∀ n < 16, digitValue? (digit n) = some n := by decide

theorem decodeBytes_encodeByte (byte : UInt8) (rest : List Char) :
    decodeBytes (encodeByte byte ++ rest) = byte :: decodeBytes rest := by
  have hbyte := byte.toNat_lt
  have hhigh : digitValue? (digit (byte.toNat / 16)) = some (byte.toNat / 16) :=
    digitValue?_digit _ (by omega)
  have hlow : digitValue? (digit (byte.toNat % 16)) = some (byte.toNat % 16) :=
    digitValue?_digit _ (by omega)
  have hsum : 16 * (byte.toNat / 16) + byte.toNat % 16 = byte.toNat := Nat.div_add_mod _ _
  rw [encodeByte, List.cons_append, List.cons_append, List.cons_append, List.nil_append, decodeBytes, hhigh,
    hlow]
  simp only [hsum, UInt8.ofNat_toNat]

theorem decodeBytes_encodeBytes (bytes : List UInt8) (rest : List Char) :
    decodeBytes (bytes.flatMap encodeByte ++ rest) = bytes ++ decodeBytes rest := by
  induction bytes with
  | nil => rfl
  | cons byte bytes ih =>
    rw [List.flatMap_cons, List.append_assoc, decodeBytes_encodeByte, ih]
    rfl

/-! ## Texts -/

variable {encoded : Char → Bool}

theorem decodeBytes_encodeChar (percent : encoded '%' = true) (c : Char) (rest : List Char) :
    decodeBytes (encodeChar encoded c ++ rest) = String.utf8EncodeChar c ++ decodeBytes rest := by
  unfold encodeChar
  split
  · exact decodeBytes_encodeBytes _ rest
  · rename_i hplain
    -- a character that stays is no percent sign
    have hne : c ≠ '%' := fun h => hplain (h ▸ percent)
    rw [List.singleton_append, decodeBytes]
    rintro a b rest' rfl
    exact absurd rfl hne

theorem decodeBytes_encode (percent : encoded '%' = true) (text : List Char) :
    decodeBytes (encode encoded text) = text.flatMap String.utf8EncodeChar := by
  induction text with
  | nil => simp [encode, decodeBytes]
  | cons c rest ih =>
    rw [List.flatMap_cons, ← ih]
    exact decodeBytes_encodeChar percent c (encode encoded rest)

/-- The bytes of a text tell the text. -/
theorem utf8_injective {a b : List Char}
    (h : a.flatMap String.utf8EncodeChar = b.flatMap String.utf8EncodeChar) : a = b := by
  have hbytes : a.utf8Encode = b.utf8Encode := congrArg List.toByteArray h
  have hdecode := congrArg ByteArray.utf8Decode? hbytes
  rw [List.utf8Decode?_utf8Encode, List.utf8Decode?_utf8Encode] at hdecode
  exact List.toArray_inj (Option.some.inj hdecode)

/-- A text is known by what its encoded form decodes to. -/
theorem eq_of_decodeBytes (percent : encoded '%' = true) {text other : List Char}
    (h : decodeBytes (encode encoded text) = other.flatMap String.utf8EncodeChar) : text = other := by
  rw [decodeBytes_encode percent] at h
  exact utf8_injective h

theorem encode_injective (percent : encoded '%' = true) {a b : List Char}
    (h : encode encoded a = encode encoded b) : a = b := by
  refine eq_of_decodeBytes percent ?_
  rw [h, decodeBytes_encode percent]

/-- An encoded text can be read back. -/
theorem decode?_encode (percent : encoded '%' = true) (text : List Char) :
    decode? (encode encoded text) = some (String.ofList text) := by
  have hbytes : (⟨(decodeBytes (encode encoded text)).toArray⟩ : ByteArray) = text.utf8Encode := by
    rw [decodeBytes_encode percent]
    exact ByteArray.ext List.data_toByteArray.symm
  unfold decode? String.fromUTF8?
  rw [hbytes, dif_pos ByteArray.isValidUTF8_utf8Encode]
  rfl

theorem mem_encodeByte {byte : UInt8} {c : Char} (h : c ∈ encodeByte byte) :
    c = '%' ∨ ∃ n < 16, c = digit n := by
  have hbyte := byte.toNat_lt
  simp only [encodeByte, List.mem_cons, List.not_mem_nil, or_false] at h
  rcases h with rfl | rfl | rfl
  · exact .inl rfl
  · exact .inr ⟨_, by omega, rfl⟩
  · exact .inr ⟨_, by omega, rfl⟩

/-- A character that is encoded does not show, unless encoding itself uses it. -/
theorem not_mem_encode {c : Char} (hidden : encoded c = true) (unused : c ≠ '%' ∧ ∀ n < 16, c ≠ digit n)
    (text : List Char) : c ∉ encode encoded text := by
  intro h
  obtain ⟨source, -, h⟩ := List.mem_flatMap.mp h
  unfold encodeChar at h
  split at h
  · obtain ⟨byte, -, hbyte⟩ := List.mem_flatMap.mp h
    rcases mem_encodeByte hbyte with rfl | ⟨n, hn, rfl⟩
    · exact unused.1 rfl
    · exact unused.2 n hn rfl
  · rename_i hplain
    rw [List.mem_singleton.mp h] at hidden
    exact hplain hidden

end EventJournal.Percent
