import EventJournal.LogServer.Http
import EventJournal.LogServer.Scripted
import EventJournal.LogServer.Unreliable
import EventJournal.Proofs.Url.Segments

/-!
# Where requests go

All requests for a stream go below `streams`, to a path that is built from the name of the stream. A server
tells two requests by their methods and paths, and it is not always able to: names that come to the same
segment are one stream to it, and a truncation of a stream whose name adds no segment looks like an append to
the stream `truncate`. That is all there is to confuse, and names without breaks that are not dots are never
confused.

* `Resource` — what a path names, and `LogCall.resource`: what the path of a call names.
* `pathText_requestOf` — the paths of two calls differ in what they add to the base address.
* `Resource.tail_eq_iff` — when two resources add the same.
* `place_eq_iff` — the main statement.
-/

namespace EventJournal

open Url (Addition addition written above addSegment addSegment_eq)

/-! ## Calls and requests -/

namespace LogCall

/-- The kind of a call. -/
def operation : LogCall → LogOperation
  | append .. => .append
  | readStream .. => .readStream
  | readAll _ => .readAll
  | truncate .. => .truncate
  | delete _ => .delete

/-- The stream that a call is about; none if it is about the whole log. -/
def stream? : LogCall → Option StreamId
  | append stream _ _ => some stream
  | readStream stream _ => some stream
  | readAll _ => none
  | truncate stream _ => some stream
  | delete stream => some stream

end LogCall

/-- The request of a call. -/
def HttpLog.requestOf (log : HttpLog) : LogCall → HttpRequest
  | .append stream expected events => log.appendRequest stream expected events
  | .readStream stream read => log.readRequest ["streams", stream.name] read
  | .readAll read => log.readRequest ["all"] read
  | .truncate stream before => log.truncateRequest stream before
  | .delete stream => log.deleteRequest stream

/-- What a server goes by: the method and the path. -/
def HttpRequest.place (request : HttpRequest) : String × String := (request.method, request.url.pathText)

/-- The method of the requests of a kind. -/
def LogOperation.method : LogOperation → String
  | append => "POST"
  | readStream => "GET"
  | readAll => "GET"
  | truncate => "POST"
  | delete => "DELETE"

theorem method_requestOf (log : HttpLog) (call : LogCall) :
    (log.requestOf call).method = call.operation.method := by
  cases call <;> rfl

/-! ## Resources -/

/-- What a path names; a stream by what its name comes to. -/
inductive Resource where
  | log
  | stream (name : Addition)
  /-- Where truncations of a stream are asked for. -/
  | truncation (name : Addition)
  deriving Repr, DecidableEq, Inhabited

/-- The resource that the path of a call names. -/
def LogCall.resource : LogCall → Resource
  | append stream _ _ => .stream (addition stream.name)
  | readStream stream _ => .stream (addition stream.name)
  | readAll _ => .log
  | truncate stream _ => .truncation (addition stream.name)
  | delete stream => .stream (addition stream.name)

namespace Resource

variable {special bare : Bool}

/-- What the path of a resource adds to the base address; `bare` when that has no segments of its own. -/
def tail (special bare : Bool) : Resource → List String
  | log => ["all"]
  | stream .nothing => ["streams"]
  | stream .back => [""]
  | stream (.segment text) => ["streams", written special text]
  | truncation .nothing => ["streams", "truncate"]
  | truncation .back => if bare then ["truncate"] else ["", "truncate"]
  | truncation (.segment text) => ["streams", written special text, "truncate"]

/-- A path always adds something. -/
theorem tail_ne_nil (resource : Resource) : resource.tail special bare ≠ [] := by
  fun_cases tail special bare resource <;> exact List.cons_ne_nil _ _

/-- What is added are the words that paths are built with, and the name of a stream. -/
theorem mem_tail {resource : Resource} {segment : String} (h : segment ∈ resource.tail special bare) :
    segment ∈ ["", "streams", "truncate", "all"] ∨ ∃ text, segment = written special text := by
  fun_cases tail special bare resource <;> grind [tail]

/-- What is added has no slashes but those between its segments. -/
theorem slash_not_mem_tail {resource : Resource} {segment : String}
    (h : segment ∈ resource.tail special bare) : '/' ∉ segment.toList := by
  rcases mem_tail h with h | ⟨text, rfl⟩
  · have hwords : ∀ word ∈ ["", "streams", "truncate", "all"], '/' ∉ word.toList := by decide
    exact hwords segment h
  · exact Url.slash_not_mem_written special text

theorem tail_eq_log_iff {resource : Resource} :
    resource.tail special bare = log.tail special bare ↔ resource = log := by
  fun_cases tail special bare resource <;> simp_all [tail]

theorem tail_stream_inj {name name' : Addition} :
    (stream name).tail special bare = (stream name').tail special bare ↔ name = name' := by
  refine ⟨fun h => ?_, fun h => h ▸ rfl⟩
  cases name <;> cases name' <;> simp [tail] at h ⊢
  case segment.segment => exact Url.written_injective h

theorem tail_truncation_inj {name name' : Addition} :
    (truncation name).tail special bare = (truncation name').tail special bare ↔ name = name' := by
  refine ⟨fun h => ?_, fun h => h ▸ rfl⟩
  cases name <;> cases name' <;> cases bare <;> simp [tail] at h ⊢
  case segment.segment.false => exact Url.written_injective h
  case segment.segment.true => exact Url.written_injective h

/-- The words that paths are built with are written as they are. -/
theorem written_word (special : Bool) {word : String} (h : word ∈ ["streams", "truncate", "all"]) :
    written special word.toList = word := by
  revert word
  cases special <;> decide

/-- A truncation adds what something else does only if the name in it adds nothing. -/
theorem tail_stream_eq_truncation_iff {name name' : Addition} :
    (stream name).tail special bare = (truncation name').tail special bare
      ↔ name = .segment "truncate".toList ∧ name' = .nothing := by
  have htruncate : written special "truncate".toList = "truncate" := written_word special (by decide)
  constructor
  · intro h
    cases name <;> cases name' <;> cases bare <;> simp [tail] at h ⊢
    case segment.nothing.false => exact Url.written_injective (h.trans htruncate.symm)
    case segment.nothing.true => exact Url.written_injective (h.trans htruncate.symm)
  · rintro ⟨rfl, rfl⟩
    rw [tail, htruncate, tail]

theorem tail_eq_iff {resource other : Resource} :
    resource.tail special bare = other.tail special bare
      ↔ resource = other ∨
        resource = stream (.segment "truncate".toList) ∧ other = truncation .nothing ∨
        other = stream (.segment "truncate".toList) ∧ resource = truncation .nothing := by
  cases resource with
  | log =>
    rw [eq_comm, tail_eq_log_iff, eq_comm]
    simp
  | stream name =>
    cases other with
    | log => simp [tail_eq_log_iff]
    | stream name' => simpa using tail_stream_inj
    | truncation name' => simpa using tail_stream_eq_truncation_iff
  | truncation name =>
    cases other with
    | log => simp [tail_eq_log_iff]
    | stream name' => simpa [eq_comm] using tail_stream_eq_truncation_iff
    | truncation name' => simpa using tail_truncation_inj

end Resource

/-! ## Paths -/

/-- Only a bare root gives way to what is added to it. -/
theorem above_append_cons (root : List String) {segment : String} {rest : List String}
    (more : segment ≠ "" ∨ rest ≠ []) : above (root ++ segment :: rest) = root ++ segment :: rest := by
  refine if_neg fun h => ?_
  rcases List.append_eq_singleton_iff.mp h with ⟨-, h⟩ | ⟨-, h⟩
  · obtain ⟨hsegment, hrest⟩ := List.cons.inj h
    exact more.elim (· hsegment) (· hrest)
  · cases h

section

variable (special : Bool)

theorem addSegment_word (base : List String) {word : String} (h : word ∈ ["streams", "truncate", "all"]) :
    addSegment special base word = above base ++ [word] := by
  have haddition : ∀ word ∈ ["streams", "truncate", "all"], addition word = .segment word.toList := by decide
  rw [addSegment_eq, haddition word h]
  exact congrArg (fun last => above base ++ [last]) (Resource.written_word special h)

/-- The path of a stream. -/
theorem foldl_stream (bare : Bool) (base : List String) (name : String) :
    ["streams", name].foldl (addSegment special) base
      = above base ++ (Resource.stream (addition name)).tail special bare := by
  rw [List.foldl_cons, List.foldl_cons, List.foldl_nil, addSegment_word special base (.head _), addSegment_eq,
    above_append_cons _ (.inl (by decide))]
  cases addition name with
  | nothing => rfl
  | back =>
    show (above base ++ ["streams"]).dropLast ++ [""] = above base ++ [""]
    rw [List.dropLast_concat]
  | segment text => exact List.append_assoc ..

/-- The path of a truncation. -/
theorem foldl_truncate (base : List String) (name : String) :
    ["streams", name, "truncate"].foldl (addSegment special) base
      = above base ++ (Resource.truncation (addition name)).tail special (above base).isEmpty := by
  have hstream := foldl_stream special true base name
  rw [List.foldl_cons, List.foldl_cons, List.foldl_nil] at hstream
  rw [List.foldl_cons, List.foldl_cons, List.foldl_cons, List.foldl_nil, hstream,
    addSegment_word special _ (.tail _ (.head _))]
  cases addition name with
  | nothing =>
    show above (above base ++ ["streams"]) ++ ["truncate"] = _
    rw [above_append_cons _ (.inl (by decide))]
    exact List.append_assoc ..
  | back =>
    -- the empty segment that is left gives way if it is the only one
    show above (above base ++ [""]) ++ ["truncate"] = _
    cases above base with
    | nil => rfl
    | cons first rest =>
      have hroot : above (first :: (rest ++ [""])) = first :: (rest ++ [""]) :=
        above_append_cons [] (.inr (List.append_ne_nil_of_right_ne_nil rest (List.cons_ne_nil _ _)))
      rw [List.cons_append, hroot]
      exact List.append_assoc (first :: rest) [""] ["truncate"]
  | segment text =>
    show above (above base ++ ["streams", written special text]) ++ ["truncate"] = _
    rw [above_append_cons _ (.inl (by decide))]
    exact List.append_assoc ..

end

/-- The paths of calls differ only in what their resources add to one base. -/
theorem pathText_requestOf {log : HttpLog} {path : List String} (hpath : log.base.path = .segments path) :
    ∃ special root, ∀ call, (log.requestOf call).url.pathText
      = "/" ++ "/".intercalate (root ++ call.resource.tail special root.isEmpty) := by
  let base := if path.getLast? = some "" then path.dropLast else path
  have hextend : ∀ texts, (log.base.extend texts).pathText = "/" ++ "/".intercalate
      (texts.foldl (addSegment (Url.isSpecial log.base.scheme)) base) := by
    intro texts
    rw [Url.extend, hpath]
    rfl
  refine ⟨Url.isSpecial log.base.scheme, above base, fun call => ?_⟩
  cases call with
  | append stream expected events => exact (hextend _).trans (by rw [foldl_stream]; rfl)
  | readStream stream read => exact (hextend _).trans (by rw [foldl_stream]; rfl)
  | readAll read =>
    refine (hextend _).trans ?_
    rw [List.foldl_cons, addSegment_word _ _ (by decide)]
    rfl
  | truncate stream before => exact (hextend _).trans (by rw [foldl_truncate]; rfl)
  | delete stream => exact (hextend _).trans (by rw [foldl_stream]; rfl)

/-- An address that a client accepts has segments. -/
theorem path_of_create {address : String} {username password : Option String} {log : HttpLog}
    (accepted : HttpLog.create address username password = .ok log) :
    ∃ path, log.base.path = .segments path := by
  unfold HttpLog.create at accepted
  cases hbase : Url.parse address with
  | error error => rw [hbase] at accepted; cases accepted
  | ok base =>
    simp only [hbase, Url.isOpaque] at accepted
    cases hpath : base.path with
    | opaquePath text => simp only [hpath, if_true] at accepted; cases accepted
    | segments path =>
      simp only [hpath, Bool.false_eq_true, if_false] at accepted
      cases accepted
      exact ⟨path, hpath⟩

/-- Two requests go to the same place exactly if they have the same method and add the same. -/
theorem place_eq_iff_tail {log : HttpLog} {path : List String} (hpath : log.base.path = .segments path) :
    ∃ special bare, ∀ call other, (log.requestOf call).place = (log.requestOf other).place
      ↔ call.operation.method = other.operation.method ∧
        call.resource.tail special bare = other.resource.tail special bare := by
  obtain ⟨special, root, htext⟩ := pathText_requestOf hpath
  refine ⟨special, root.isEmpty, fun call other => ?_⟩
  rw [HttpRequest.place, HttpRequest.place, Prod.mk.injEq, method_requestOf, method_requestOf, htext, htext]
  refine and_congr_right fun _ => ⟨fun h => ?_, fun h => by rw [h]⟩
  exact Url.text_append_inj (fun _ => Resource.slash_not_mem_tail) (fun _ => Resource.slash_not_mem_tail)
    (Resource.tail_ne_nil _) (Resource.tail_ne_nil _) (String.append_right_inj _ |>.mp h)

/-! ## What a server can tell -/

/-- Whether a name is a segment as it stands: it is not dots, and has no breaks. -/
def StreamId.Plain (stream : StreamId) : Prop :=
  stream.name ≠ "." ∧ stream.name ≠ ".." ∧ ∀ c ∈ stream.name.toList, c ≠ '\t' ∧ c ≠ '\n' ∧ c ≠ '\r'

theorem StreamId.Plain.addition_eq {stream : StreamId} (h : stream.Plain) :
    addition stream.name = .segment stream.name.toList := by
  obtain ⟨hdot, hdots, hbreaks⟩ := h
  have hunbroken : Url.unbroken stream.name.toList = stream.name.toList := by
    refine List.filter_eq_self.mpr fun c hc => ?_
    obtain ⟨htab, hnewline, hreturn⟩ := hbreaks c hc
    simp [htab, hnewline, hreturn]
  unfold Url.addition
  have hdouble : stream.name.toList ≠ ['.', '.'] := fun h => hdots (String.toList_inj.mp h)
  have hsingle : stream.name.toList ≠ ['.'] := fun h => hdot (String.toList_inj.mp h)
  rw [hunbroken, if_neg (not_or.mpr ⟨hdot, hdots⟩), if_neg hdouble, if_neg hsingle]

namespace LogCall

/-- Calls of one kind, for streams whose names come to the same. -/
def Alike (call other : LogCall) : Prop :=
  call.operation = other.operation ∧
    call.stream?.map (fun stream => addition stream.name)
      = other.stream?.map fun stream => addition stream.name

/-- An append to the stream `truncate`, and a truncation of a stream whose name adds nothing. -/
inductive Crossed : LogCall → LogCall → Prop
  | intro {stream stream' : StreamId} (expected events before)
      (word : addition stream.name = .segment "truncate".toList)
      (nothing : addition stream'.name = .nothing) :
      Crossed (append stream expected events) (truncate stream' before)

/-- The call is not about a stream whose name is dots or has breaks. -/
def Plain (call : LogCall) : Prop := ∀ stream ∈ call.stream?, stream.Plain

/-- A kind is told by its method and by what it asks for. -/
theorem alike_iff {call other : LogCall} :
    call.Alike other
      ↔ call.operation.method = other.operation.method ∧ call.resource = other.resource := by
  unfold Alike
  cases call <;> cases other <;> simp [operation, stream?, resource, LogOperation.method]

theorem crossed_iff {call other : LogCall} :
    call.Crossed other
      ↔ call.operation.method = other.operation.method ∧
        call.resource = .stream (.segment "truncate".toList) ∧ other.resource = .truncation .nothing := by
  constructor
  · rintro ⟨expected, events, before, hword, hnothing⟩
    exact ⟨rfl, congrArg Resource.stream hword, congrArg Resource.truncation hnothing⟩
  · rintro ⟨hmethod, hword, hnothing⟩
    cases other with
    | truncate stream' before =>
      cases call with
      | append stream expected events =>
        exact .intro expected events before (Resource.stream.inj hword) (Resource.truncation.inj hnothing)
      | readAll read => cases hword
      | truncate stream before => cases hword
      | readStream stream read => exact absurd hmethod (show "GET" ≠ "POST" by decide)
      | delete stream => exact absurd hmethod (show "DELETE" ≠ "POST" by decide)
    | readAll read => cases hnothing
    | append stream' expected events => cases hnothing
    | readStream stream' read => cases hnothing
    | delete stream' => cases hnothing

theorem tail_eq_iff {special bare : Bool} {call other : LogCall} :
    (call.operation.method = other.operation.method ∧
        call.resource.tail special bare = other.resource.tail special bare)
      ↔ call.Alike other ∨ call.Crossed other ∨ other.Crossed call := by
  rw [alike_iff, crossed_iff, crossed_iff, Resource.tail_eq_iff]
  grind

theorem Alike.eq_of_plain {call other : LogCall} (alike : call.Alike other) (plain : call.Plain)
    (plain' : other.Plain) : call.stream? = other.stream? := by
  obtain ⟨-, hnames⟩ := alike
  cases hcall : call.stream? with
  | none =>
    rw [hcall] at hnames
    exact (Option.map_eq_none_iff.mp hnames.symm).symm
  | some stream =>
    rw [hcall] at hnames
    obtain ⟨stream', hother, hname⟩ := Option.map_eq_some_iff.mp hnames.symm
    have hnamed : Addition.segment stream'.name.toList = .segment stream.name.toList := by
      rw [← (plain stream hcall).addition_eq, ← (plain' stream' hother).addition_eq]
      exact hname
    have hsame : stream.name = stream'.name := String.toList_inj.mp (Addition.segment.inj hnamed).symm
    rw [hother]
    exact congrArg some (congrArg StreamId.mk hsame)

/-- A truncation that is taken for an append is not of a plain name. -/
theorem Crossed.not_plain {call other : LogCall} (crossed : call.Crossed other) : ¬ other.Plain := by
  obtain ⟨expected, events, before, -, hnothing⟩ := crossed
  intro h
  rw [(h _ rfl).addition_eq] at hnothing
  cases hnothing

end LogCall

/-- Two requests go to one place exactly if they are of one kind, for names that come to the same, or an
append to `truncate` and a truncation of a name that adds nothing. So those for plain names are told. -/
theorem place_eq_iff {address : String} {username password : Option String} {log : HttpLog}
    (accepted : HttpLog.create address username password = .ok log) (call other : LogCall) :
    ((log.requestOf call).place = (log.requestOf other).place
        ↔ call.Alike other ∨ call.Crossed other ∨ other.Crossed call) ∧
      (call.Plain → other.Plain → ((log.requestOf call).place = (log.requestOf other).place
        ↔ call.operation = other.operation ∧ call.stream? = other.stream?)) := by
  obtain ⟨path, hpath⟩ := path_of_create accepted
  obtain ⟨special, bare, hplace⟩ := place_eq_iff_tail hpath
  have hiff := (hplace call other).trans LogCall.tail_eq_iff
  refine ⟨hiff, fun plain plain' => hiff.trans ⟨?_, ?_⟩⟩
  · rintro (alike | crossed | crossed)
    · exact ⟨alike.1, alike.eq_of_plain plain plain'⟩
    · exact absurd plain' crossed.not_plain
    · exact absurd plain crossed.not_plain
  · rintro ⟨hoperation, hstream⟩
    exact .inl ⟨hoperation, by rw [hstream]⟩

/-- A log server below a path. -/
def sampleLog : HttpLog :=
  { base := { scheme := "http", username := "", password := none,
              host := some (.ipv6 [0, 0, 0, 0, 0, 0, 0, 1]), port := some 2113,
              path := .segments ["api", ""], query := none, fragment := none },
    username := none, password := none }

/-- A deletion of the stream `a<tab>b` is one of the stream `ab`, and a truncation of the stream `.` is an
append to the stream `truncate`. -/
theorem place_eq_iff_sample :
    HttpLog.create "http://[::1]:2113/api/" none none = .ok sampleLog ∧
      (sampleLog.requestOf (.delete ⟨"a\tb"⟩)).place = (sampleLog.requestOf (.delete ⟨"ab"⟩)).place ∧
      (sampleLog.requestOf (.truncate ⟨"."⟩ 3)).place
        = (sampleLog.requestOf (.append ⟨"truncate"⟩ .any [])).place := by
  have accepted : HttpLog.create "http://[::1]:2113/api/" none none = .ok sampleLog := rfl
  refine ⟨accepted, (place_eq_iff accepted _ _).1.mpr (.inl ⟨rfl, ?_⟩),
    (place_eq_iff accepted _ _).1.mpr (.inr (.inr ?_))⟩
  · decide
  · exact .intro _ _ _ (by decide) (by decide)

end EventJournal
