import Octo.Codec.Lines
import Octo.Ingest.Shapes

/-!
# The event stream

`SseDecoder` and `PaymentStream` of `crates/ingest/src/horizon.rs`.  The bytes of a response arrive
in chunks; the decoder takes complete lines off its buffer, gathers the `data:` lines of an event,
and decodes the event at the empty line that ends it.  `json` is the text parser of `serde_json`.

* `PaymentStream.records`: what the calls of `next_record` return until the stream is closed or
  fails.
-/

namespace Octo.Ingest

open Codec Lines List

inductive SseError
  | decode
  deriving DecidableEq

def maxSseEventBytes : Nat := 1024 * 1024

def newline : UInt8 := 10

def fromUtf8 (raw : List UInt8) : Option String := String.fromUTF8? ⟨raw.toArray⟩

def trimLineEnd (line : String) : List Char :=
  (line.toList.reverse.dropWhile (fun c => c == '\n' || c == '\r')).reverse

def stripPrefix (p s : List Char) : Option (List Char) :=
  if p.isPrefixOf s then some (s.drop p.length) else none

/-- `parse_sse_data`: a JSON object is a record, anything else is a control event. -/
def parseSseData (json : String → Option Json) (data : String) :
    Except SseError (Option PaymentRecord) :=
  if (data.toList.dropWhile isWhitespace).head? != some '{' then .ok none
  else
    match (json data).bind readPayment with
    | some rec => .ok (some rec)
    | none => .error .decode

def pushData (data : String) (value : List Char) : String :=
  (if data.isEmpty then data else data.push '\n') ++ String.ofList
    ((stripPrefix [' '] value).getD value)

structure SseDecoder where
  buf : List UInt8
  data : String

namespace SseDecoder

def default : SseDecoder := ⟨[], ""⟩

def feed (dec : SseDecoder) (bytes : List UInt8) : Except SseError SseDecoder :=
  let buf := dec.buf ++ bytes
  -- a line this long without a newline is never a legitimate event
  if maxSseEventBytes < buf.length && !buf.contains newline then .error .decode
    else .ok { dec with buf := buf }

/-- The body of the loop of `next_record`: one line of the buffer, with the data gathered so far. -/
def line (json : String → Option Json) (data : String) (raw : List UInt8) :
    Except SseError (String × Option PaymentRecord) := do
  match fromUtf8 raw with
  | none => throw .decode
  | some text =>
    let line := trimLineEnd text
    if line.isEmpty then
      let rec? ← parseSseData json data
      return ("", rec?)
    else
      match stripPrefix "data:".toList line with
      | some value =>
        let data := pushData data value
        if maxSseEventBytes < data.utf8ByteSize then throw .decode else return (data, none)
      -- `event:`, `id:`, `retry:` and comment lines
      | none => return (data, none)

def nextRecord (json : String → Option Json) (dec : SseDecoder) :
    Except SseError (Option PaymentRecord × SseDecoder) :=
  match Lines.next newline (line json) dec.data dec.buf with
  | .error e => .error e
  | .ok (r, data, buf) => .ok (r, ⟨buf, data⟩)

end SseDecoder

/-- `PaymentStream`: the decoder and the chunks that have not arrived yet. -/
structure PaymentStream where
  decoder : SseDecoder
  chunks : List (List UInt8)

namespace PaymentStream

def bytes (s : PaymentStream) : List UInt8 := s.decoder.buf ++ s.chunks.flatten

/-- The loop of `next_record`; `none` once the stream is closed. -/
def pull (json : String → Option Json) (dec : SseDecoder) (chunks : List (List UInt8)) :
    Except SseError (Option (PaymentRecord × PaymentStream)) :=
  match dec.nextRecord json with
  | .error e => .error e
  | .ok (some rec, dec) => .ok (some (rec, ⟨dec, chunks⟩))
  | .ok (none, dec) =>
    match chunks with
    | [] => .ok none
    | bytes :: chunks =>
      match dec.feed bytes with
      | .error e => .error e
      | .ok dec => pull json dec chunks

def nextRecord (json : String → Option Json) (s : PaymentStream) :
    Except SseError (Option (PaymentRecord × PaymentStream)) := pull json s.decoder s.chunks

/-! ### What the lines give -/

def NoLongLine (s : List UInt8) : Prop := ∀ r, r <:+: s → newline ∉ r → r.length ≤ maxSseEventBytes

theorem NoLongLine.of_suffix {s t : List UInt8} (h : NoLongLine s) (hts : t <:+ s) : NoLongLine t :=
  fun r hr => h r (hr.trans hts.isInfix)

variable {json : String → Option Json}

def consumed (json : String → Option Json) (s : PaymentStream) :
    List PaymentRecord × Except SseError (String × List UInt8) :=
  Lines.consume newline (SseDecoder.line json) s.decoder.data s.bytes

open SseDecoder PaymentStream

theorem feed_of_noLongLine {dec : SseDecoder} {bytes rest : List UInt8}
    (h : NoLongLine (dec.buf ++ (bytes ++ rest))) :
    dec.feed bytes = .ok { dec with buf := dec.buf ++ bytes } := by
  unfold feed
  by_cases hmem : newline ∈ dec.buf ++ bytes
  · simp [hmem]
  · have hle : (dec.buf ++ bytes).length ≤ maxSseEventBytes := by
      refine h _ ?_ hmem
      rw [← append_assoc]
      exact infix_append' [] _ _
    have hguard : decide (maxSseEventBytes < (dec.buf ++ bytes).length) = false :=
      decide_eq_false (Nat.not_lt.mpr hle)
    simp only [hguard, Bool.false_and, Bool.false_eq_true, if_false]

theorem consumed_eq (json : String → Option Json) (dec : SseDecoder) (chunks : List (List UInt8)) :
    consumed json ⟨dec, chunks⟩ = andThen newline (line json) chunks.flatten
      (consume newline (line json) dec.data dec.buf) :=
  consume_append dec.data dec.buf chunks.flatten

section

variable {dec : SseDecoder} {data : String} {buf : List UInt8} {rec : PaymentRecord} {e : SseError}

theorem bytes_suffix (h : buf <:+ dec.buf) (data : String) (chunks : List (List UInt8)) :
    (mk ⟨buf, data⟩ chunks).bytes <:+ (mk dec chunks).bytes := by
  obtain ⟨l, hl⟩ := h
  exact ⟨l, by rw [bytes, bytes, ← hl, append_assoc]⟩

theorem consumed_of_error (hx : next newline (line json) dec.data dec.buf = .error e)
    (chunks : List (List UInt8)) : consumed json ⟨dec, chunks⟩ = ([], .error e) := by
  have hnext : Lines.Follows newline (line json) dec.buf _ _ := consume_of_next dec.data dec.buf
  rw [hx] at hnext
  rw [consumed_eq, show consume newline (line json) dec.data dec.buf = _ from hnext]
  rfl

theorem consumed_of_record
    (hx : next newline (line json) dec.data dec.buf = .ok (some rec, data, buf))
    (chunks : List (List UInt8)) :
    consumed json ⟨dec, chunks⟩ = (rec :: (consumed json ⟨⟨buf, data⟩, chunks⟩).1,
      (consumed json ⟨⟨buf, data⟩, chunks⟩).2) ∧ buf.length < dec.buf.length ∧ buf <:+ dec.buf := by
  have hnext : Lines.Follows newline (line json) dec.buf _ _ := consume_of_next dec.data dec.buf
  rw [hx] at hnext
  obtain ⟨hc, hlt, hsuffix⟩ := hnext
  refine ⟨?_, hlt, hsuffix⟩
  rw [consumed_eq, hc, andThen_cons, ← consume_append]
  rfl

theorem consumed_of_drained (hx : next newline (line json) dec.data dec.buf = .ok (none, data, buf))
    (chunks : List (List UInt8)) :
    consumed json ⟨dec, chunks⟩ = consumed json ⟨⟨buf, data⟩, chunks⟩ ∧ newline ∉ buf ∧
    buf <:+ dec.buf := by
  have hnext : Lines.Follows newline (line json) dec.buf _ _ := consume_of_next dec.data dec.buf
  rw [hx] at hnext
  obtain ⟨hc, hmem, hsuffix⟩ := hnext
  refine ⟨?_, hmem, hsuffix⟩
  rw [consumed_eq, hc]
  rfl

theorem feed_same (json : String → Option Json) {dec' : SseDecoder} {c : List UInt8}
    (h : dec.feed c = .ok dec') (chunks : List (List UInt8)) :
    (mk dec' chunks).bytes = (mk dec (c :: chunks)).bytes ∧
      consumed json ⟨dec', chunks⟩ = consumed json ⟨dec, c :: chunks⟩ := by
  unfold feed at h
  dsimp only at h
  split at h
  · cases h
  · cases h
    have hbytes : (mk ⟨dec.buf ++ c, dec.data⟩ chunks).bytes = (mk dec (c :: chunks)).bytes :=
      append_assoc _ _ _
    exact ⟨hbytes, by rw [consumed, consumed, hbytes]⟩

end

/-- **The rule for the loop of `next_record`**: a line fails, a line gives a record, the stream is
closed, a chunk is refused, or the loop goes on with the next chunk in the buffer. -/
theorem pull_rule
    {P : SseDecoder → List (List UInt8) → Except SseError (Option (PaymentRecord × PaymentStream)) →
      Prop}
    (hfails : ∀ dec chunks e, next newline (line json) dec.data dec.buf = .error e →
      P dec chunks (.error e))
    (hrecord : ∀ dec chunks rec data buf, next newline (line json) dec.data dec.buf =
      .ok (some rec, data, buf) → P dec chunks (.ok (some (rec, ⟨⟨buf, data⟩, chunks⟩))))
    (hclosed : ∀ dec data buf, next newline (line json) dec.data dec.buf = .ok (none, data, buf) →
      P dec [] (.ok none))
    (hrefused : ∀ dec c chunks data buf e, next newline (line json) dec.data dec.buf =
      .ok (none, data, buf) → feed ⟨buf, data⟩ c = .error e → P dec (c :: chunks) (.error e))
    (hfed : ∀ dec c chunks data buf dec' x, next newline (line json) dec.data dec.buf =
      .ok (none, data, buf) → feed ⟨buf, data⟩ c = .ok dec' → P dec' chunks x →
      P dec (c :: chunks) x) (dec : SseDecoder) (chunks : List (List UInt8)) :
    P dec chunks (pull json dec chunks) := by
  induction chunks generalizing dec with
  | nil =>
    rw [pull, SseDecoder.nextRecord]
    cases hx : next newline (line json) dec.data dec.buf with
    | error e => exact hfails dec [] e hx
    | ok q =>
      obtain ⟨r, data, buf⟩ := q
      cases r with
      | none => exact hclosed dec data buf hx
      | some rec => exact hrecord dec [] rec data buf hx
  | cons c chunks ih =>
    rw [pull, SseDecoder.nextRecord]
    cases hx : next newline (line json) dec.data dec.buf with
    | error e => exact hfails dec _ e hx
    | ok q =>
      obtain ⟨r, data, buf⟩ := q
      cases r with
      | some rec => exact hrecord dec _ rec data buf hx
      | none =>
        show P dec (c :: chunks) (match feed ⟨buf, data⟩ c with
          | .error e => .error e
          | .ok dec => pull json dec chunks)
        cases hc : feed ⟨buf, data⟩ c with
        | error e => exact hrefused dec c chunks data buf e hx hc
        | ok dec' => exact hfed dec c chunks data buf dec' _ hx hc (ih dec')

theorem pull_suffix (dec : SseDecoder) (chunks : List (List UInt8)) : ∀ rec s',
    pull json dec chunks = .ok (some (rec, s')) →
      s'.bytes.length < (mk dec chunks).bytes.length ∧ s'.bytes <:+ (mk dec chunks).bytes := by
  refine pull_rule (P := fun dec chunks x => ∀ rec s', x = .ok (some (rec, s')) →
    s'.bytes.length < (mk dec chunks).bytes.length ∧
      s'.bytes <:+ (mk dec chunks).bytes) ?_ ?_ ?_ ?_ ?_ dec chunks
  · intro dec chunks e _ rec s' h
    cases h
  · intro dec chunks rec data buf hx rec' s' h
    cases h
    obtain ⟨-, hlt, hsuffix⟩ := consumed_of_record hx chunks
    refine ⟨?_, bytes_suffix hsuffix data chunks⟩
    simpa [bytes] using hlt
  · intro dec data buf _ rec s' h
    cases h
  · intro dec c chunks data buf e _ _ rec s' h
    cases h
  · intro dec c chunks data buf dec' x hx hc ih rec s' h
    have hshorter := bytes_suffix (consumed_of_drained hx (c :: chunks)).2.2 data (c :: chunks)
    obtain ⟨hlt, hsuffix⟩ := ih rec s' h
    rw [(feed_same json hc chunks).1] at hlt hsuffix
    exact ⟨Nat.lt_of_lt_of_le hlt hshorter.length_le, hsuffix.trans hshorter⟩

/-- What the calls of `next_record` return, one after the other, until the stream is closed or
fails. -/
def records (json : String → Option Json) (s : PaymentStream) :
    List PaymentRecord × Option SseError :=
  match _h : s.nextRecord json with
  | .error e => ([], some e)
  | .ok none => ([], none)
  | .ok (some (rec, s')) => (rec :: (records json s').1, (records json s').2)
termination_by s.bytes.length
decreasing_by all_goals exact (pull_suffix _ _ _ _ ‹_›).1

def Pulled (json : String → Option Json) (s : PaymentStream) :
    Except SseError (Option (PaymentRecord × PaymentStream)) → Prop
  | .error e => s.consumed json = ([], .error e)
  | .ok none => ∃ left, s.consumed json = ([], .ok left)
  | .ok (some (rec, s')) => s.consumed json = (rec :: (s'.consumed json).1, (s'.consumed json).2)

theorem Pulled.of_same {s s1 : PaymentStream}
    {x : Except SseError (Option (PaymentRecord × PaymentStream))} (h : Pulled json s1 x)
    (hsame : s.consumed json = s1.consumed json) : Pulled json s x := by
  unfold Pulled at h ⊢
  rw [hsame]
  exact h

/-- **What a call of `next_record` returns is what the lines of the stream give next.** -/
theorem pulled (dec : SseDecoder) (chunks : List (List UInt8)) :
    NoLongLine (mk dec chunks).bytes → Pulled json ⟨dec, chunks⟩ (pull json dec chunks) := by
  refine pull_rule (P := fun dec chunks x =>
    NoLongLine (mk dec chunks).bytes → Pulled json ⟨dec, chunks⟩ x) ?_ ?_ ?_ ?_ ?_ dec chunks
  · intro dec chunks e hx _
    exact consumed_of_error hx chunks
  · intro dec chunks rec data buf hx _
    exact (consumed_of_record hx chunks).1
  · intro dec data buf hx _
    obtain ⟨hsame, hmem, -⟩ := consumed_of_drained hx []
    refine ⟨(data, buf), hsame.trans ?_⟩
    have hbytes : (mk ⟨buf, data⟩ []).bytes = buf := append_nil buf
    rw [consumed, hbytes]
    exact consume_of_none (cut_eq_none.mpr hmem)
  · intro dec c chunks data buf e hx hc hno
    have hshorter := bytes_suffix (consumed_of_drained hx (c :: chunks)).2.2 data (c :: chunks)
    rw [feed_of_noLongLine (hno.of_suffix hshorter)] at hc
    cases hc
  · intro dec c chunks data buf dec' x hx hc ih hno
    obtain ⟨hsame, -, hsuffix⟩ := consumed_of_drained hx (c :: chunks)
    obtain ⟨hbytes, hfed⟩ := feed_same json hc chunks
    refine (ih ?_).of_same (hsame.trans hfed.symm)
    rw [hbytes]
    exact hno.of_suffix (bytes_suffix hsuffix data (c :: chunks))

def firstError : Except SseError (String × List UInt8) → Option SseError
  | .error e => some e
  | .ok _ => none

/-- The records are what the lines of the whole stream give, unless a line is too long. -/
theorem records_eq_consumed (s : PaymentStream) (h : NoLongLine s.bytes) :
    s.records json = ((s.consumed json).1, firstError (s.consumed json).2) := by
  induction hn : s.bytes.length using Nat.strongRecOn generalizing s with
  | ind n ih =>
    have hpulled : Pulled json s (s.nextRecord json) := pulled s.decoder s.chunks h
    rw [records]
    split
    · rename_i e hx
      rw [hx] at hpulled
      rw [show s.consumed json = ([], .error e) from hpulled]
      rfl
    · rename_i hx
      rw [hx] at hpulled
      obtain ⟨_, hc⟩ := hpulled
      rw [hc]
      rfl
    · rename_i rec s' hx
      rw [hx] at hpulled
      obtain ⟨hlt, hsuffix⟩ := pull_suffix s.decoder s.chunks rec s' hx
      rw [show s.consumed json = (rec :: (s'.consumed json).1, (s'.consumed json).2) from hpulled,
        ih _ (hn ▸ hlt) s' (h.of_suffix hsuffix) rfl]

/-- **The chunks do not matter**: two streams of the same bytes, none of whose lines is too long,
give the same records and end with the same error, if any. -/
theorem chunking_irrelevant (json : String → Option Json) (chunks chunks' : List (List UInt8))
    (hsame : chunks.flatten = chunks'.flatten) (hlines : NoLongLine chunks.flatten) :
    records json ⟨.default, chunks⟩ = records json ⟨.default, chunks'⟩ := by
  have hbytes : (PaymentStream.mk .default chunks).bytes =
      (PaymentStream.mk .default chunks').bytes := hsame
  have hno : NoLongLine (PaymentStream.mk .default chunks).bytes := hlines
  rw [records_eq_consumed _ hno, records_eq_consumed _ (hbytes ▸ hno), consumed, consumed, hbytes]

theorem noLongLine_of_length {s : List UInt8} (h : s.length ≤ maxSseEventBytes) : NoLongLine s :=
  fun _ hr _ => hr.length_le.trans h

def exampleWire : List UInt8 := "data: \"hello\"\n\nid: 1\ndata: \x7b\x7d\n\n".toUTF8.toList

def exampleJson (_ : String) : Option Json :=
  some (.obj [("id", .str "1"), ("paging_token", .str "1"), ("type", .str "payment")])

/-- Cut in two or not, the stream gives one record, with the token of its event. -/
theorem example_chunks : records exampleJson ⟨.default, [exampleWire]⟩ =
      records exampleJson ⟨.default, [exampleWire.take 20, exampleWire.drop 20]⟩ ∧
    (records exampleJson ⟨.default, [exampleWire]⟩).1.map (·.pagingToken) = ["1"] := by
  refine ⟨chunking_irrelevant exampleJson _ _ ?_ ?_, by decide +kernel⟩
  · simp
  · exact noLongLine_of_length (by decide +kernel)

end PaymentStream

end Octo.Ingest
