import HomelabInventory.EventFrames

/-!
# The event stream in chunks

What the reader does depends on the bytes alone as long as no chunk ends inside a CR LF
and the buffer never outgrows its limit: then it hands on the frames of the whole text.
The limit is checked before the complete frames are taken out of the buffer, so a chunk
of many frames can outgrow it.
-/

namespace HomelabInventory.EventStream

open List
open CatalogProtocol (Value)

/-- What the reader appends to its buffer: a text for each chunk, and one at the end. -/
def texts (state : Utf8.State × Bool) : List (List UInt8) → List (List Char)
  | [] => [normalizeLineEnds (Utf8.decoder.finish state)]
  | value :: chunks =>
    normalizeLineEnds (Utf8.decoder.run state value).1 ::
      texts (Utf8.decoder.run state value).2 chunks

/-- The text of a whole stream. -/
def streamText (stream : List UInt8) : List Char :=
  normalizeLineEnds (Utf8.decoder.run Utf8.decoder.start stream).1 ++
    normalizeLineEnds (Utf8.decoder.finish (Utf8.decoder.run Utf8.decoder.start stream).2)

/-- No chunk ends between the CR and the LF of one line end, which would make two line ends of it. -/
def KeepsLineEnds (chunks : List (List UInt8)) : Prop :=
  ∀ before after, chunks = before ++ after →
    ¬(before.flatten.getLast? = some 13 ∧ after.flatten.head? = some 10)

/-- Every frame with its blank line, and the text after the last one, is within the limit. -/
structure FramesFit (stream : List UInt8) : Prop where
  frames : ∀ frame ∈ (splitFrames (streamText stream)).1, byteLength frame + 2 ≤ maxFrameBytes
  rest : byteLength (openText (streamText stream)) ≤ maxFrameBytes

/-- Every chunk completes one frame at most, so that no two frames wait in the buffer. -/
def OneFrameEach (chunks : List (List UInt8)) : Prop :=
  ∀ before text after, texts Utf8.decoder.start chunks = before ++ text :: after →
    (splitFrames (openText before.flatten ++ text)).1.length ≤ 1

/-- The frame is skipped or is an event. -/
def Readable (parseJson : String → Option Value) (frame : List Char) :
    Prop :=
  frame = [] ∨ frame.head? = some ':' ∨ ∃ event, parseFrame parseJson frame = .ok event

/-- From a buffer on, no text outgrows the buffer before an unreadable frame is complete. -/
def FitsFrom (parseJson : String → Option Value) (buffer : List Char)
    (pieces : List (List Char)) : Prop :=
  ∀ before text after, pieces = before ++ text :: after →
    (∀ frame ∈ (splitFrames (buffer ++ before.flatten)).1, Readable parseJson frame) →
    byteLength (openText (buffer ++ before.flatten) ++ text) ≤ maxFrameBytes * 2

/-- No chunk outgrows the buffer before an unreadable frame is complete: the open text
before the chunk and the text of the chunk are within twice the limit of a frame. -/
def BufferFits (parseJson : String → Option Value)
    (chunks : List (List UInt8)) : Prop :=
  FitsFrom parseJson [] (texts Utf8.decoder.start chunks)

/-! ## The reader hands on the frames of the whole text -/

theorem byteLength_append (first second : List Char) :
    byteLength (first ++ second) = byteLength first + byteLength second := by
  simp [byteLength]

section Reader

variable {m : Type → Type} [Monad m]
  (parseJson : String → Option Value) (onEvent : Event → ExceptT Failure m Unit)

/-- Hand on the frames of a text in order, and fail when it does not end with a frame. -/
def deliver (text : List Char) : ExceptT Failure m Unit := do
  (splitFrames text).1.forM (takeFrame parseJson onEvent)
  if !isBlank (openText text) then throw endedMidFrame

variable [LawfulMonad m]

/-- A turn of the loop fails when the buffer is outgrown, and else hands on its frames. -/
theorem takeText_eq (buffer text : List Char) :
    takeText parseJson onEvent buffer text =
      if byteLength (buffer ++ normalizeLineEnds text) ≤ maxFrameBytes * 2 then do
        (splitFrames (buffer ++ normalizeLineEnds text)).1.forM (takeFrame parseJson onEvent)
        pure (openText (buffer ++ normalizeLineEnds text))
      else throw frameTooLarge := by
  unfold takeText
  by_cases h : byteLength (buffer ++ normalizeLineEnds text) ≤ maxFrameBytes * 2
  · rw [if_neg (Nat.not_lt.mpr h), if_pos h, drainFrames_eq]
  · rw [if_pos (Nat.not_le.mp h), if_neg h, ExceptT.bind_throw]

variable {buffer text : List Char}

theorem takeText_of_gt (h : maxFrameBytes * 2 < byteLength (buffer ++ normalizeLineEnds text)) :
    takeText parseJson onEvent buffer text = throw frameTooLarge := by
  rw [takeText_eq, if_neg (Nat.not_le.mpr h)]

theorem takeText_of_le (h : byteLength (buffer ++ normalizeLineEnds text) ≤ maxFrameBytes * 2) :
    takeText parseJson onEvent buffer text = (do
      (splitFrames (buffer ++ normalizeLineEnds text)).1.forM (takeFrame parseJson onEvent)
      pure (openText (buffer ++ normalizeLineEnds text))) := by
  rw [takeText_eq, if_pos h]

theorem deliver_append (first second : List Char) :
    deliver parseJson onEvent (first ++ second) = (do
      (splitFrames first).1.forM (takeFrame parseJson onEvent)
      deliver parseJson onEvent (openText first ++ second)) := by
  unfold deliver
  rw [openText_append, splitFrames_append]
  simp only [forM_eq_forM, forM_append, bind_assoc]

/-- A frame that is not readable is an error. -/
theorem takeFrame_of_not_readable {frame : List Char} (h : ¬Readable parseJson frame) :
    ∃ failure, parseFrame parseJson frame = .error failure ∧
      takeFrame parseJson onEvent frame = throw failure := by
  have hskip : ¬(frame = [] ∨ frame.head? = some ':') := fun hskip =>
    h (hskip.elim Or.inl fun hhead => Or.inr (Or.inl hhead))
  cases hparse : parseFrame parseJson frame with
  | ok event => exact absurd (Or.inr (Or.inr ⟨event, hparse⟩)) h
  | error failure =>
    refine ⟨failure, rfl, ?_⟩
    rw [takeFrame, if_neg hskip, hparse]
    exact ExceptT.bind_throw onEvent

/-- Nothing is reached after frames of which one is not readable. -/
theorem forM_bind_congr {β : Type} {frames : List (List Char)}
    (h : ∃ frame ∈ frames, ¬Readable parseJson frame) (k k' : Unit → ExceptT Failure m β) :
    (frames.forM (takeFrame parseJson onEvent) >>= k) =
      (frames.forM (takeFrame parseJson onEvent) >>= k') := by
  induction frames with
  | nil =>
    obtain ⟨frame, hmem, -⟩ := h
    cases hmem
  | cons first rest ih =>
    simp only [forM_eq_forM, forM_cons, bind_assoc] at ih ⊢
    by_cases hfirst : Readable parseJson first
    · have hrest : ∃ frame ∈ rest, ¬Readable parseJson frame := by
        obtain ⟨frame, hmem, hnot⟩ := h
        rcases mem_cons.mp hmem with rfl | hmem
        · exact absurd hfirst hnot
        · exact ⟨frame, hmem, hnot⟩
      exact bind_congr fun _ => ih hrest
    · obtain ⟨failure, -, htake⟩ := takeFrame_of_not_readable parseJson onEvent hfirst
      rw [htake, ExceptT.bind_throw, ExceptT.bind_throw]

omit [Monad m] [LawfulMonad m] in
/-- A buffer fits when it fits at the first text and its open text fits at the others. -/
theorem fitsFrom_cons {pieces : List (List Char)} (hopen : openText buffer = buffer) :
    FitsFrom parseJson buffer (text :: pieces) ↔
      byteLength (buffer ++ text) ≤ maxFrameBytes * 2 ∧
        ((∀ frame ∈ (splitFrames (buffer ++ text)).1, Readable parseJson frame) →
          FitsFrom parseJson (openText (buffer ++ text)) pieces) := by
  have hframes : (splitFrames buffer).1 = [] := by rw [← hopen, splitFrames_openText]
  constructor
  · refine fun h => ⟨?_, fun hreadable before next after hpieces hbefore => ?_⟩
    · have hfirst := h [] text pieces rfl
      rw [flatten_nil, append_nil, hopen, hframes] at hfirst
      exact hfirst fun frame hframe => by cases hframe
    · have hnext := h (text :: before) next after (by rw [hpieces]; rfl)
      rw [flatten_cons, ← append_assoc, openText_append] at hnext
      refine hnext fun frame hframe => ?_
      rw [splitFrames_append] at hframe
      rcases mem_append.mp hframe with hframe | hframe
      · exact hreadable frame hframe
      · exact hbefore frame hframe
  · rintro ⟨hle, hrest⟩ before next after hpieces hbefore
    cases before with
    | nil =>
      injection hpieces with htext
      rw [flatten_nil, append_nil, hopen, ← htext]
      exact hle
    | cons first before =>
      injection hpieces with htext hpieces
      subst htext
      rw [flatten_cons, ← append_assoc] at hbefore ⊢
      rw [splitFrames_append] at hbefore
      rw [openText_append]
      exact hrest (fun frame hframe => hbefore frame (mem_append_left _ hframe)) before next
        after hpieces fun frame hframe => hbefore frame (mem_append_right _ hframe)

/-- **The loop hands on the frames of its buffer and all texts to come.** -/
theorem consumeChunks_eq (state : Utf8.State × Bool) (hopen : openText buffer = buffer)
    (chunks : List (List UInt8)) (hfits : FitsFrom parseJson buffer (texts state chunks)) :
    consumeChunks parseJson onEvent state buffer chunks =
      deliver parseJson onEvent (buffer ++ (texts state chunks).flatten) := by
  induction chunks generalizing state buffer with
  | nil =>
    obtain ⟨hle, -⟩ := (fitsFrom_cons parseJson hopen).mp hfits
    rw [consumeChunks, takeText_of_le parseJson onEvent hle, texts, flatten_singleton,
      deliver]
    simp only [bind_assoc, pure_bind]
  | cons value chunks ih =>
    obtain ⟨hle, hrest⟩ := (fitsFrom_cons parseJson hopen).mp hfits
    rw [consumeChunks, takeText_of_le parseJson onEvent hle, texts, flatten_cons,
      ← append_assoc, deliver_append]
    simp only [bind_assoc, pure_bind]
    by_cases hreadable : ∀ frame ∈
        (splitFrames (buffer ++ normalizeLineEnds (Utf8.decoder.run state value).1)).1,
        Readable parseJson frame
    · rw [ih _ (openText_openText _) (hrest hreadable)]
    · push Not at hreadable
      exact forM_bind_congr parseJson onEvent hreadable _ _

end Reader

/-! ## The texts of the chunks are the text of the stream -/

theorem getLast?_text_cut {before after : List UInt8}
    (hkeep : ¬(before.getLast? = some 13 ∧ after.head? = some 10)) :
    ¬((Utf8.decoder.run Utf8.decoder.start before).1.getLast? = some '\r' ∧
      (Utf8.decoder.run (Utf8.decoder.run Utf8.decoder.start before).2 after).1.head? =
        some '\n') := by
  rintro ⟨hlast, hhead⟩
  exact hkeep (Utf8.decoder_cut ⟨by decide, by decide⟩ ⟨by decide, by decide⟩ hlast hhead)

/-- **Line ends that are kept make the texts of the chunks the text of the stream.** -/
theorem flatten_texts {chunks : List (List UInt8)} (hkeep : KeepsLineEnds chunks) :
    (texts Utf8.decoder.start chunks).flatten = streamText chunks.flatten := by
  suffices hfrom : ∀ before after, chunks = before ++ after →
      normalizeLineEnds (Utf8.decoder.run Utf8.decoder.start before.flatten).1 ++
        (texts (Utf8.decoder.run Utf8.decoder.start before.flatten).2 after).flatten =
      streamText chunks.flatten from hfrom [] chunks rfl
  intro before after hchunks
  induction after generalizing before with
  | nil =>
    rw [hchunks, append_nil, texts, flatten_singleton, streamText]
  | cons value after ih =>
    have hstep := ih (before ++ [value]) (by rw [hchunks, append_assoc]; rfl)
    have hcut : ¬(before.flatten.getLast? = some 13 ∧ value.head? = some 10) := by
      rintro ⟨hlast, hhead⟩
      refine hkeep before (value :: after) hchunks ⟨hlast, ?_⟩
      cases value with
      | nil => cases hhead
      | cons byte rest => exact hhead
    have hflatten : (before ++ [value]).flatten = before.flatten ++ value := by simp
    rw [hflatten, Utf8.decoder.run_append,
      normalizeLineEnds_append (getLast?_text_cut hcut), append_assoc] at hstep
    rw [texts, flatten_cons]
    exact hstep

section Reader

variable {m : Type → Type} [Monad m] [LawfulMonad m]
  (parseJson : String → Option Value) (onEvent : Event → ExceptT Failure m Unit)

/-- **The reader hands on the frames of the stream**, when line ends are kept and the
buffer fits. -/
theorem consumeSse_eq_deliver {chunks : List (List UInt8)} (hkeep : KeepsLineEnds chunks)
    (hfits : BufferFits parseJson chunks) :
    consumeSse parseJson onEvent chunks =
      deliver parseJson onEvent (streamText chunks.flatten) := by
  rw [consumeSse, consumeChunks_eq parseJson onEvent _ rfl chunks hfits, nil_append,
    flatten_texts hkeep]

end Reader

end HomelabInventory.EventStream
