import Mathlib.Data.List.Basic

/-!
# Event streams

The interpretation of a stream of the type `text/event-stream`: lines that end with a line feed, a carriage return or
both, fields of a line, and the dispatch of a message at an empty line. The parser takes one character after another,
so it does not matter in which pieces the stream arrives.
-/

namespace EventStream

structure Message where
  eventType : List Char
  data : List Char
  lastEventId : List Char
  deriving DecidableEq

/-- The buffers of the parser. -/
structure Parser where
  line : List Char
  afterReturn : Bool
  eventType : List Char
  data : List Char
  lastEventId : List Char
  dispatched : List Message

def start : Parser := ⟨[], false, [], [], [], []⟩

/-- A field of the stream; every line of the data ends with a line feed. -/
def Parser.field (p : Parser) (name value : List Char) : Parser :=
  if name = "event".toList then { p with eventType := value }
  else if name = "data".toList then { p with data := p.data ++ value ++ ['\n'] }
  else if name = "id".toList then if '\x00' ∈ value then p else { p with lastEventId := value }
  else p

/-- An event without data is none. -/
def Parser.dispatch (p : Parser) : Parser :=
  if p.data = [] then { p with eventType := [] }
  else
    { p with
      dispatched := p.dispatched ++
        [⟨if p.eventType = [] then "message".toList else p.eventType, p.data.dropLast, p.lastEventId⟩]
      eventType := []
      data := [] }

/-- The value of a field without the space in front of it. -/
def fieldValue (rest : List Char) : List Char :=
  match rest with
  | ' ' :: rest => rest
  | rest => rest

/-- A line is over. -/
def Parser.endLine (p : Parser) : Parser :=
  let q := { p with line := [] }
  if p.line = [] then q.dispatch
  else
    match p.line.span (· ≠ ':') with
    | ([], _) => q
    | (name, []) => q.field name []
    | (name, _ :: rest) => q.field name (fieldValue rest)

def Parser.step (p : Parser) (c : Char) : Parser :=
  if c = '\r' then { p.endLine with afterReturn := true }
  else if c = '\n' then if p.afterReturn then { p with afterReturn := false } else p.endLine
  else { p with line := p.line ++ [c], afterReturn := false }

def Parser.feed (p : Parser) (text : List Char) : Parser := text.foldl Parser.step p

/-- What a client of the stream is told. -/
def messages (text : List Char) : List Message := (start.feed text).dispatched

/-! ### The parser runs on -/

section Feed

variable {p : Parser}

lemma feed_append (p : Parser) (s t : List Char) : p.feed (s ++ t) = (p.feed s).feed t := List.foldl_append

lemma dispatched_field (p : Parser) (name value : List Char) : (p.field name value).dispatched = p.dispatched := by
  unfold Parser.field
  split
  · rfl
  split
  · rfl
  split
  · split
    · rfl
    · rfl
  · rfl

lemma dispatched_dispatch (p : Parser) : p.dispatched <+: p.dispatch.dispatched := by
  unfold Parser.dispatch
  split
  · exact List.prefix_refl _
  · exact List.prefix_append _ _

lemma dispatched_endLine (p : Parser) : p.dispatched <+: p.endLine.dispatched := by
  unfold Parser.endLine
  split
  · exact dispatched_dispatch { p with line := [] }
  · split
    · exact List.prefix_refl _
    · exact (dispatched_field _ _ _).symm ▸ List.prefix_refl p.dispatched
    · exact (dispatched_field _ _ _).symm ▸ List.prefix_refl p.dispatched

lemma dispatched_step (p : Parser) (c : Char) : p.dispatched <+: (p.step c).dispatched := by
  unfold Parser.step
  split
  · exact dispatched_endLine p
  split
  · split
    · exact List.prefix_refl _
    · exact dispatched_endLine p
  · exact List.prefix_refl _

lemma dispatched_feed (p : Parser) (text : List Char) : p.dispatched <+: (p.feed text).dispatched := by
  induction text generalizing p with
  | nil => exact List.prefix_refl _
  | cons c text ih => exact (dispatched_step p c).trans (ih (p.step c))

/-- What has been dispatched is not taken back: a part of a stream tells a part of its messages. -/
theorem messages_of_take {s text : List Char} (h : s <+: text) : messages s <+: messages text := by
  obtain ⟨t, rfl⟩ := h
  unfold messages
  rw [feed_append]
  exact dispatched_feed _ t

/-! ### Frames of one line of data -/

/-- A text without a line break. -/
def OneLine (s : List Char) : Prop := ∀ c ∈ s, c ≠ '\r' ∧ c ≠ '\n'

/-- A frame that carries a line of data. -/
def dataFrame (payload : List Char) : List Char := "data: ".toList ++ (payload ++ ['\n', '\n'])

lemma feed_oneLine {s : List Char} (h : OneLine s) (p : Parser) (hreturn : p.afterReturn = false) :
    p.feed s = { p with line := p.line ++ s } := by
  induction s generalizing p with
  | nil =>
    rw [List.append_nil]
    rfl
  | cons c s ih =>
    have hc := h c List.mem_cons_self
    have hstep : p.step c = { p with line := p.line ++ [c] } := by
      simp only [Parser.step, if_neg hc.1, if_neg hc.2, hreturn]
    have hfeed : p.feed (c :: s) = (p.step c).feed s := rfl
    have hs : OneLine s := fun d hd => h d (List.mem_cons_of_mem c hd)
    rw [hfeed, hstep, ih hs { p with line := p.line ++ [c] } hreturn, List.append_assoc, List.singleton_append]

/-- Between two frames: nothing is buffered. -/
def idle (dispatched : List Message) : Parser := ⟨[], false, [], [], [], dispatched⟩

lemma dataFrame_eq (payload : List Char) : dataFrame payload = ("data: ".toList ++ payload) ++ ['\n', '\n'] :=
  (List.append_assoc _ _ _).symm

lemma endLine_data (payload : List Char) (dispatched : List Message) :
    Parser.endLine { idle dispatched with line := "data: ".toList ++ payload } =
      { idle dispatched with data := payload ++ ['\n'] } := by
  rfl

lemma oneLine_data {payload : List Char} (h : OneLine payload) : OneLine ("data: ".toList ++ payload) := by
  intro c hc
  obtain hc | hc := List.mem_append.mp hc
  · have hname : ("data: ".toList.all fun d => d != '\r' && d != '\n') = true := by decide
    have hboth := List.all_eq_true.mp hname c hc
    rw [Bool.and_eq_true, bne_iff_ne, bne_iff_ne] at hboth
    exact hboth
  · exact h c hc

lemma dispatch_data (payload : List Char) (dispatched : List Message) :
    Parser.dispatch { idle dispatched with data := payload ++ ['\n'] } =
      idle (dispatched ++ [⟨"message".toList, payload, []⟩]) := by
  have hdata : payload ++ ['\n'] ≠ [] := by simp
  simp only [Parser.dispatch, hdata, if_false, List.dropLast_concat]
  rfl

/-- A frame tells its line of data, and leaves nothing behind. -/
lemma feed_dataFrame {payload : List Char} (h : OneLine payload) (dispatched : List Message) :
    (idle dispatched).feed (dataFrame payload) = idle (dispatched ++ [⟨"message".toList, payload, []⟩]) := by
  have hfirst : (idle dispatched).feed ("data: ".toList ++ payload) =
      { idle dispatched with line := "data: ".toList ++ payload } := feed_oneLine (oneLine_data h) _ rfl
  rw [dataFrame_eq, feed_append, hfirst]
  exact (congrArg Parser.endLine (endLine_data payload dispatched)).trans (dispatch_data payload dispatched)

/-- The messages of a stream of frames are their lines of data. -/
theorem messages_dataFrames {payloads : List (List Char)} (h : ∀ payload ∈ payloads, OneLine payload) :
    messages (payloads.flatMap dataFrame) = payloads.map fun payload => ⟨"message".toList, payload, []⟩ := by
  have hfeed : ∀ dispatched, (idle dispatched).feed (payloads.flatMap dataFrame) =
      idle (dispatched ++ payloads.map fun payload => ⟨"message".toList, payload, []⟩) := by
    induction payloads with
    | nil =>
      intro dispatched
      rw [List.map_nil, List.append_nil]
      rfl
    | cons payload payloads ih =>
      intro dispatched
      have hrest := ih fun q hq => h q (List.mem_cons_of_mem payload hq)
      rw [List.flatMap_cons, feed_append, feed_dataFrame (h payload List.mem_cons_self), hrest, List.append_assoc,
        List.singleton_append, List.map_cons]
  exact congrArg Parser.dispatched (hfeed [])

end Feed

end EventStream
