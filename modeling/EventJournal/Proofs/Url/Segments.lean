import EventJournal.Proofs.Url.Percent
import EventJournal.Url.Basic

/-!
# Segments added to a path

A text that is added to a path as a segment is encoded, so that nothing in it can be taken for the end of
the segment, and can be read back. But not every text becomes a segment of its own: one or two dots add
nothing, breaks are dropped, and dots that are left after that move within the path.

* `Url.addition` — what a text comes to.
* `addSegment_eq` — and what it makes of the path.
* `written_injective` — two segments are written in the same way only if they are the same.
* `text_append_inj` — paths that go on differently from one base have different texts.
-/

namespace EventJournal.Url

/-- What a text comes to when it is added to a path as a segment. -/
inductive Addition where
  | nothing
  /-- The segment before it gives way to an empty one. -/
  | back
  /-- A segment of its own, as it is before it is encoded. -/
  | segment (text : List Char)
  deriving Repr, DecidableEq, Inhabited

/-- What a text comes to: one or two dots to nothing; with breaks among them, two dots go back and one is
an empty segment. -/
def addition (text : String) : Addition :=
  if text = "." ∨ text = ".." then .nothing
  else if unbroken text.toList = ['.', '.'] then .back
  else if unbroken text.toList = ['.'] then .segment []
  else .segment (unbroken text.toList)

/-- The characters that are encoded in a segment. -/
def segmentSet (special : Bool) : Char → Bool :=
  if special then Percent.webSegment else Percent.segment

/-- A segment as it is written. -/
def written (special : Bool) (text : List Char) : String :=
  String.ofList (Percent.encode (segmentSet special) text)

/-! ## Written segments -/

theorem segmentSet_percent (special : Bool) : segmentSet special '%' = true := by
  cases special <;> decide

theorem segmentSet_slash (special : Bool) : segmentSet special '/' = true := by
  cases special <;> decide

/-- A segment has no slash in it. -/
theorem slash_not_mem_written (special : Bool) (text : List Char) :
    '/' ∉ (written special text).toList := by
  rw [written, String.toList_ofList]
  exact Percent.not_mem_encode (segmentSet_slash special) (by decide) text

theorem written_injective {special : Bool} {a b : List Char} (h : written special a = written special b) :
    a = b :=
  Percent.encode_injective (segmentSet_percent special) (String.ofList_injective h)

/-- The ways to write a dot. -/
def dotForms : List (List Char) := [['.'], ['%', '2', 'e'], ['%', '2', 'E']]

theorem decodeBytes_dot {form : List Char} (h : form ∈ dotForms) (rest : List Char) :
    Percent.decodeBytes (form ++ rest) = 46 :: Percent.decodeBytes rest := by
  simp only [dotForms, List.mem_cons, List.not_mem_nil, or_false] at h
  rcases h with rfl | rfl | rfl
  · rw [List.singleton_append, Percent.decodeBytes]
    · rfl
    · rintro a b rest ⟨⟩
  · rw [List.cons_append, List.cons_append, List.singleton_append, Percent.decodeBytes]
    rfl
  · rw [List.cons_append, List.cons_append, List.singleton_append, Percent.decodeBytes]
    rfl

theorem dotForms_of_isDot {word : String} (h : isDot word = true) : word.toList ∈ dotForms := by
  have hwords : ∀ word ∈ [".", "%2e", "%2E"], word.toList ∈ dotForms := by decide
  exact hwords word (List.contains_iff_mem.mp h)

theorem dotForms_of_isDoubleDot {word : String} (h : isDoubleDot word = true) :
    ∃ one ∈ dotForms, ∃ two ∈ dotForms, word.toList = one ++ two := by
  have hwords : ∀ word ∈ ["..", ".%2e", ".%2E", "%2e.", "%2E.", "%2e%2e", "%2e%2E", "%2E%2e", "%2E%2E"],
      ∃ one ∈ dotForms, ∃ two ∈ dotForms, word.toList = one ++ two := by decide
  exact hwords word (List.contains_iff_mem.mp h)

theorem decodeBytes_of_isDot {word : String} (h : isDot word = true) :
    Percent.decodeBytes word.toList = ['.'].flatMap String.utf8EncodeChar := by
  rw [← List.append_nil word.toList, decodeBytes_dot (dotForms_of_isDot h), Percent.decodeBytes]
  rfl

theorem decodeBytes_of_isDoubleDot {word : String} (h : isDoubleDot word = true) :
    Percent.decodeBytes word.toList = ['.', '.'].flatMap String.utf8EncodeChar := by
  obtain ⟨one, hone, two, htwo, hword⟩ := dotForms_of_isDoubleDot h
  rw [hword, decodeBytes_dot hone, ← List.append_nil two, decodeBytes_dot htwo, Percent.decodeBytes]
  rfl

/-- A segment that is read as dots is written with them: a percent sign never stands for itself. -/
theorem isDot_written {special : Bool} {text : List Char} :
    isDot (written special text) = true ↔ text = ['.'] := by
  constructor
  · intro h
    have hdecoded := decodeBytes_of_isDot h
    rw [written, String.toList_ofList] at hdecoded
    exact Percent.eq_of_decodeBytes (segmentSet_percent special) hdecoded
  · rintro rfl
    cases special <;> decide

theorem isDoubleDot_written {special : Bool} {text : List Char} :
    isDoubleDot (written special text) = true ↔ text = ['.', '.'] := by
  constructor
  · intro h
    have hdecoded := decodeBytes_of_isDoubleDot h
    rw [written, String.toList_ofList] at hdecoded
    exact Percent.eq_of_decodeBytes (segmentSet_percent special) hdecoded
  · rintro rfl
    cases special <;> decide

/-! ## Paths -/

/-- The segments that one more is added to: a bare root has none. -/
def above (path : List String) : List String := if path = [""] then [] else path

/-- What a text makes of a path. -/
theorem addSegment_eq (special : Bool) (path : List String) (text : String) :
    addSegment special path text =
      match addition text with
      | .nothing => path
      | .back => (above path).dropLast ++ [""]
      | .segment segment => above path ++ [written special segment] := by
  have hwritten : encodeSegment special text = written special (unbroken text.toList) := rfl
  unfold addSegment addition
  by_cases hdots : text = "." ∨ text = ".."
  · rw [if_pos hdots, if_pos hdots]
  · rw [if_neg hdots, if_neg hdots, hwritten, walk]
    by_cases hdouble : unbroken text.toList = ['.', '.']
    · rw [if_pos (isDoubleDot_written.mpr hdouble), if_pos hdouble]
      rfl
    · rw [if_neg fun h => hdouble (isDoubleDot_written.mp h), if_neg hdouble]
      by_cases hdot : unbroken text.toList = ['.']
      · rw [if_pos (isDot_written.mpr hdot), if_pos hdot]
        rfl
      · rw [if_neg fun h => hdot (isDot_written.mp h), if_neg hdot]
        rfl

/-- Segments without slashes are told by the text of their path. -/
theorem intercalate_injective {one two : List String} (hone : ∀ segment ∈ one, '/' ∉ segment.toList)
    (htwo : ∀ segment ∈ two, '/' ∉ segment.toList) (some : one ≠ []) (some' : two ≠ [])
    (h : "/".intercalate one = "/".intercalate two) : one = two := by
  have hslash : "/" = String.singleton '/' := rfl
  have hsplit := congrArg (fun text => ((text.split '/').toList.map fun part => part.copy)) h
  rw [hslash, String.toList_split_intercalate hone, String.toList_split_intercalate htwo, if_neg some,
    if_neg some'] at hsplit
  exact hsplit

/-- Paths that go on from one base are told by their texts. -/
theorem text_append_inj {base one two : List String} (hone : ∀ segment ∈ one, '/' ∉ segment.toList)
    (htwo : ∀ segment ∈ two, '/' ∉ segment.toList) (some : one ≠ []) (some' : two ≠ [])
    (h : "/".intercalate (base ++ one) = "/".intercalate (base ++ two)) : one = two := by
  by_cases hbase : base = []
  · rw [hbase, List.nil_append, List.nil_append] at h
    exact intercalate_injective hone htwo some some' h
  · rw [String.intercalate_append_of_ne_nil hbase some, String.intercalate_append_of_ne_nil hbase some'] at h
    exact intercalate_injective hone htwo some some' (String.append_right_inj _ |>.mp h)

end EventJournal.Url
