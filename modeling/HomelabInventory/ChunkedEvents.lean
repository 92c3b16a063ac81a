import HomelabInventory.EventChunks
import Mathlib.Control.Monad.Basic

/-!
# Chunks that the event stream can be read in

A chunking that completes one frame at most with each chunk fits the buffer when the
frames do. Byte by byte, with a CR LF in one chunk, is such a chunking of every stream.
The reader treats any other chunking alike exactly when it fits the buffer.
-/

namespace HomelabInventory.EventStream

open List
open CatalogProtocol (Value)

/-! ## Chunks of one frame at most -/

theorem byteLength_le_of_prefix {first second : List Char} (h : first <+: second) :
    byteLength first ≤ byteLength second := by
  obtain ⟨rest, rfl⟩ := h
  rw [byteLength_append]
  exact Nat.le_add_right _ _

variable {chunk stream : List UInt8}

/-- An open text on the way is within the limit of the frames. -/
theorem byteLength_openText_le (hfit : FramesFit stream) {first second : List Char}
    (h : streamText stream = first ++ second) : byteLength (openText first) ≤ maxFrameBytes := by
  have hframes := hfit.frames
  have hrest := hfit.rest
  rw [h, splitFrames_append] at hframes
  rw [h, openText_append] at hrest
  cases hcut : (splitFrames (openText first ++ second)).1 with
  | nil =>
    rw [openText, splitFrames_of_nil hcut, byteLength_append] at hrest
    omega
  | cons frame frames =>
    have hprefix : openText first <+: frame ++ ['\n'] :=
      prefix_of_splitFrames (by rw [splitFrames_openText]) hcut
    have hle := byteLength_le_of_prefix hprefix
    have hframe := hframes frame (mem_append_right _ (by rw [hcut]; exact mem_cons_self))
    rw [byteLength_append] at hle
    have hend : byteLength ['\n'] = 1 := by decide
    omega

/-- **Chunks that complete one frame at most fit the buffer** when the frames fit. -/
theorem bufferFits_of_oneFrameEach (parseJson : String → Option Value)
    {chunks : List (List UInt8)} (hfit : FramesFit chunks.flatten) (hkeep : KeepsLineEnds chunks)
    (hone : OneFrameEach chunks) : BufferFits parseJson chunks := by
  intro before text after htexts _
  rw [nil_append]
  have hstream : streamText chunks.flatten = (before.flatten ++ text) ++ after.flatten := by
    rw [← flatten_texts hkeep, htexts]
    simp
  have hopen := byteLength_openText_le hfit hstream
  rw [openText_append] at hopen
  have hlength := hone before text after htexts
  have hjoin := join_splitFrames (openText before.flatten ++ text)
  have hframes := hfit.frames
  rw [hstream, append_assoc, splitFrames_append, ← append_assoc,
    splitFrames_append] at hframes
  cases hcut : (splitFrames (openText before.flatten ++ text)).1 with
  | nil =>
    rw [hcut, map_nil, flatten_nil, nil_append] at hjoin
    rw [← hjoin]
    omega
  | cons frame frames =>
    rw [hcut] at hlength hjoin hframes
    have hnil : frames = [] := by
      simp only [length_cons] at hlength
      exact eq_nil_of_length_eq_zero (by omega)
    have hframe := hframes frame (by simp)
    rw [hnil, map_cons, map_nil, flatten_singleton] at hjoin
    rw [← hjoin, byteLength_append, byteLength_append]
    have hblank : byteLength ['\n', '\n'] = 2 := by decide
    omega

/-- A text of two characters completes one frame at most. -/
theorem length_frames_le_one {first text : List Char} (hopen : (splitFrames first).1 = [])
    (hshort : text.length ≤ 2) : (splitFrames (first ++ text)).1.length ≤ 1 := by
  have hjoin := congrArg List.length (join_splitFrames (first ++ text))
  cases hcut : (splitFrames (first ++ text)).1 with
  | nil => exact Nat.zero_le _
  | cons frame frames =>
    have hprefix := (prefix_of_splitFrames hopen hcut).length_le
    cases frames with
    | nil => exact le_rfl
    | cons second frames =>
      rw [hcut] at hjoin
      simp only [map_cons, flatten_cons, length_append, length_cons,
        length_nil] at hjoin hprefix
      omega

theorem oneFrameEach_of_short {chunks : List (List UInt8)}
    (hshort : ∀ text ∈ texts Utf8.decoder.start chunks, text.length ≤ 2) :
    OneFrameEach chunks := by
  intro before text after htexts
  refine length_frames_le_one (by rw [splitFrames_openText]) (hshort text ?_)
  rw [htexts]
  exact mem_append_right _ mem_cons_self

/-! ## Byte by byte -/

/-- The bytes of a stream one by one, but a CR LF together. -/
def unitChunks : List UInt8 → List (List UInt8)
  | byte :: next :: rest =>
    if byte = 13 ∧ next = 10 then [byte, next] :: unitChunks rest
    else [byte] :: unitChunks (next :: rest)
  | [byte] => [[byte]]
  | [] => []

theorem flatten_unitChunks (stream : List UInt8) : (unitChunks stream).flatten = stream := by
  fun_induction unitChunks stream with
  | case1 rest byte next h ih => simp [ih]
  | case2 byte next rest h ih => simp [ih]
  | case3 byte => rfl
  | case4 => rfl

/-- A chunk of one byte, or a CR LF. -/
theorem mem_unitChunks (h : chunk ∈ unitChunks stream) :
    (∃ byte, chunk = [byte]) ∨ chunk = [13, 10] := by
  fun_induction unitChunks stream with
  | case1 byte next rest hend ih =>
    obtain ⟨rfl, rfl⟩ := hend
    rcases mem_cons.mp h with rfl | h
    · exact Or.inr rfl
    · exact ih h
  | case2 byte next rest hend ih =>
    rcases mem_cons.mp h with rfl | h
    · exact Or.inl ⟨byte, rfl⟩
    · exact ih h
  | case3 byte => exact Or.inl ⟨byte, mem_singleton.mp h⟩
  | case4 => cases h

theorem getLast?_append_singleton {α : Type} (first : List α) {l : List α} {a b : α}
    (h : (first ++ [a] ++ l).getLast? = some b) : l = [] ∧ a = b ∨ l.getLast? = some b := by
  rcases eq_nil_or_concat l with rfl | ⟨init, c, rfl⟩
  · exact Or.inl ⟨rfl, by simpa using h⟩
  · refine Or.inr ?_
    rw [← h, getLast?_append_of_ne_nil _ (by simp)]

theorem keepsLineEnds_unitChunks (stream : List UInt8) : KeepsLineEnds (unitChunks stream) := by
  intro before after hchunks
  fun_induction unitChunks stream generalizing before with
  | case1 byte next rest hend ih =>
    obtain ⟨rfl, rfl⟩ := hend
    cases before with
    | nil => exact fun ⟨hlast, _⟩ => by cases hlast
    | cons chunk before =>
      injection hchunks with hchunk hrest
      subst hchunk
      rintro ⟨hlast, hhead⟩
      rcases getLast?_append_singleton [13] hlast with ⟨-, heq⟩ | hlast
      · cases heq
      · exact ih before hrest ⟨hlast, hhead⟩
  | case2 byte next rest hend ih =>
    cases before with
    | nil => exact fun ⟨hlast, _⟩ => by cases hlast
    | cons chunk before =>
      injection hchunks with hchunk hrest
      subst hchunk
      rintro ⟨hlast, hhead⟩
      rcases getLast?_append_singleton [] hlast with ⟨hnil, heq⟩ | hlast
      · -- nothing was read after the byte, so what comes next is the next byte
        have hflatten : (unitChunks (next :: rest)).flatten = (before ++ after).flatten :=
          congrArg List.flatten hrest
        rw [flatten_unitChunks, flatten_append, hnil, nil_append] at hflatten
        rw [← hflatten] at hhead
        exact hend ⟨heq, by simpa using hhead⟩
      · exact ih before hrest ⟨hlast, hhead⟩
  | case3 byte =>
    rintro ⟨hlast, hhead⟩
    have hflatten := congrArg List.flatten hchunks
    rw [flatten_append] at hflatten
    cases hbefore : before.flatten with
    | nil => rw [hbefore] at hlast; cases hlast
    | cons first more =>
      cases hafter : after.flatten with
      | nil => rw [hafter] at hhead; cases hhead
      | cons second last =>
        rw [hbefore, hafter] at hflatten
        have hlength := congrArg List.length hflatten
        simp at hlength
  | case4 =>
    rw [(nil_eq_append_iff.mp hchunks).1]
    exact fun ⟨hlast, _⟩ => by cases hlast

/-! ## A byte writes two characters at most -/

theorem length_stepBetween_le (byte : ℕ) : (Utf8.stepBetween byte).1.length ≤ 1 := by
  rcases Utf8.stepBetween_cases byte with ⟨-, h⟩ | ⟨_, _, _, _, -, h⟩ | h
  · rw [h]; exact le_rfl
  · rw [h]; exact Nat.zero_le _
  · rw [h]; exact le_rfl

theorem length_step_le (state : Utf8.State) (byte : UInt8) :
    (Utf8.step state byte).1.length ≤ 2 := by
  cases state with
  | between => exact (length_stepBetween_le _).trans (by decide)
  | inside codePoint owed lower upper =>
    rw [Utf8.step]
    split
    · split
      · exact Nat.le_succ 1
      · exact Nat.zero_le _
    · exact Nat.succ_le_succ (length_stepBetween_le _)

theorem length_markless_le (seen : Bool) (text : List Char) :
    (Utf8.markless.run seen text).1.length ≤ text.length := by
  induction text generalizing seen with
  | nil => exact le_rfl
  | cons c rest ih =>
    rw [Transducer.run_cons, length_append, length_cons]
    have hrest := ih (Utf8.markless.step seen c).2
    have hfirst : (Utf8.markless.step seen c).1.length ≤ 1 := by
      simp only [Utf8.markless]
      split
      · exact Nat.zero_le _
      · exact le_rfl
    omega

/-- A CR LF writes a CR and an LF after one character at most. -/
theorem run_crLf {state : Utf8.State} (hs : state.Valid) :
    ∃ first, first.length ≤ 1 ∧ (Utf8.characters.run state [13, 10]).1 = first ++ ['\r', '\n'] := by
  cases state with
  | between => exact ⟨[], Nat.zero_le _, by decide⟩
  | inside codePoint owed lower upper =>
    have hlower := hs.1
    have hbyte : (13 : UInt8).toNat = 13 := rfl
    have hcr : Utf8.step (.inside codePoint owed lower upper) 13 =
        ([Utf8.replacement, '\r'], .between) := by
      rw [Utf8.step, if_neg (by omega)]
      rfl
    have hstep : Utf8.characters.step (.inside codePoint owed lower upper) 13 =
        ([Utf8.replacement, '\r'], .between) := hcr
    refine ⟨[Utf8.replacement], le_rfl, ?_⟩
    rw [Transducer.run_cons, hstep]
    rfl

/-- The text of a byte or of a CR LF has two characters at most. -/
theorem length_unit_le {state : Utf8.State × Bool} (hs : state.1.Valid)
    (hchunk : (∃ byte, chunk = [byte]) ∨ chunk = [13, 10]) :
    (normalizeLineEnds (Utf8.decoder.run state chunk).1).length ≤ 2 := by
  rw [Utf8.decoder, Transducer.run_andThen]
  dsimp only
  rcases hchunk with ⟨byte, rfl⟩ | rfl
  · have hstep := length_step_le state.1 byte
    have hrun : (Utf8.characters.run state.1 [byte]).1 = (Utf8.step state.1 byte).1 := by
      rw [Transducer.run_cons, Transducer.run_nil, append_nil]
      rfl
    rw [hrun]
    exact (length_normalizeLineEnds_le _).trans ((length_markless_le _ _).trans hstep)
  · obtain ⟨first, hfirst, hrun⟩ := run_crLf hs
    rw [hrun, Transducer.run_append]
    have hcrLf : ∀ seen, (Utf8.markless.run seen ['\r', '\n']).1 = ['\r', '\n'] := by decide
    rw [hcrLf, normalizeLineEnds_append (fun h => by cases h.2), length_append]
    have hle := (length_normalizeLineEnds_le (Utf8.markless.run state.2 first).1).trans
      (length_markless_le state.2 first)
    have hone : (normalizeLineEnds ['\r', '\n']).length = 1 := by decide
    omega

theorem length_finish_le (state : Utf8.State × Bool) : (Utf8.decoder.finish state).length ≤ 1 := by
  obtain ⟨state, seen⟩ := state
  cases state with
  | between => exact Nat.zero_le _
  | inside codePoint owed lower upper =>
    change ((Utf8.markless.run seen [Utf8.replacement]).1 ++ []).length ≤ 1
    rw [append_nil]
    exact length_markless_le seen _

/-- **Byte by byte, every chunk completes one frame at most.** -/
theorem oneFrameEach_unitChunks (stream : List UInt8) : OneFrameEach (unitChunks stream) := by
  apply oneFrameEach_of_short
  have hchunks : ∀ chunk ∈ unitChunks stream, (∃ byte, chunk = [byte]) ∨ chunk = [13, 10] :=
    fun chunk hchunk => mem_unitChunks hchunk
  have hstart : Utf8.State.Valid Utf8.decoder.start.1 := trivial
  generalize unitChunks stream = chunks at hchunks
  generalize Utf8.decoder.start = state at hstart
  induction chunks generalizing state with
  | nil =>
    intro text htext
    rw [mem_singleton.mp htext]
    exact (length_normalizeLineEnds_le _).trans ((length_finish_le state).trans (by decide))
  | cons chunk rest ih =>
    intro text htext
    rcases mem_cons.mp htext with rfl | htext
    · exact length_unit_le hstart (hchunks chunk mem_cons_self)
    · refine ih (fun next hnext => hchunks next (mem_cons_of_mem _ hnext)) _ ?_ text htext
      rw [Utf8.decoder, Transducer.run_andThen]
      exact Utf8.characters.run_invariant (P := Utf8.State.Valid)
        (fun _ byte hs => Utf8.valid_step hs byte) hstart chunk

/-- Byte by byte without a CR LF, every chunk is one byte. -/
theorem unitChunks_eq_map (h : ¬[13, 10] <:+: stream) :
    unitChunks stream = stream.map fun byte => [byte] := by
  fun_induction unitChunks stream with
  | case1 byte next rest hend ih =>
    obtain ⟨rfl, rfl⟩ := hend
    exact absurd ⟨[], rest, rfl⟩ h
  | case2 byte next rest hend ih =>
    rw [ih fun hpart => h (hpart.trans (suffix_cons byte _).isInfix)]
    rfl
  | case3 byte => rfl
  | case4 => rfl

/-! ## A buffer that is outgrown -/

/-- A coordinator that takes every event and does nothing. -/
def quiet (_ : Event) : ExceptT Failure Id Unit := pure ()

section Quiet

variable {parseJson : String → Option Value}

theorem takeFrame_quiet {frame : List Char} (h : Readable parseJson frame) :
    takeFrame parseJson quiet frame = pure () := by
  rw [takeFrame]
  split
  · rfl
  · next hskip =>
    rcases h with hnil | hcomment | ⟨event, hevent⟩
    · exact absurd (Or.inl hnil) hskip
    · exact absurd (Or.inr hcomment) hskip
    · rw [hevent]
      rfl

theorem forM_quiet {frames : List (List Char)} (h : ∀ frame ∈ frames, Readable parseJson frame) :
    frames.forM (takeFrame parseJson quiet) = pure () := by
  induction frames with
  | nil => rfl
  | cons frame frames ih =>
    simp only [forM_eq_forM, forM_cons] at ih ⊢
    rw [takeFrame_quiet (h frame mem_cons_self), pure_bind,
      ih fun next hnext => h next (mem_cons_of_mem _ hnext)]

/-- **A buffer that is outgrown is an error.** -/
theorem consumeChunks_of_not_fits (state : Utf8.State × Bool) {buffer : List Char}
    (hopen : openText buffer = buffer) (chunks : List (List UInt8))
    (h : ¬FitsFrom parseJson buffer (texts state chunks)) :
    consumeChunks parseJson quiet state buffer chunks = throw frameTooLarge := by
  induction chunks generalizing state buffer with
  | nil =>
    rw [texts, fitsFrom_cons parseJson hopen] at h
    rw [consumeChunks]
    by_cases hle : byteLength (buffer ++ normalizeLineEnds (Utf8.decoder.finish state)) ≤
        maxFrameBytes * 2
    · refine absurd ⟨hle, fun _ before next after hpieces => ?_⟩ h
      cases append_ne_nil_of_right_ne_nil before (cons_ne_nil next after) hpieces.symm
    · rw [takeText_of_gt parseJson quiet (Nat.not_le.mp hle), ExceptT.bind_throw]
  | cons value chunks ih =>
    rw [texts, fitsFrom_cons parseJson hopen] at h
    rw [consumeChunks]
    by_cases hle : byteLength (buffer ++ normalizeLineEnds (Utf8.decoder.run state value).1) ≤
        maxFrameBytes * 2
    · have hrest : ¬((∀ frame ∈
          (splitFrames (buffer ++ normalizeLineEnds (Utf8.decoder.run state value).1)).1,
          Readable parseJson frame) →
          FitsFrom parseJson
            (openText (buffer ++ normalizeLineEnds (Utf8.decoder.run state value).1))
            (texts (Utf8.decoder.run state value).2 chunks)) := fun hrest => h ⟨hle, hrest⟩
      rw [Classical.not_imp] at hrest
      rw [takeText_of_le parseJson quiet hle, forM_quiet hrest.1, pure_bind, pure_bind]
      exact ih _ (openText_openText _) hrest.2
    · rw [takeText_of_gt parseJson quiet (Nat.not_le.mp hle), ExceptT.bind_throw]

/-- The errors of a check are not the one of a frame that is too large. -/
theorem bind_ne_frameTooLarge {α β : Type} {x : Except Failure α} {f : α → Except Failure β}
    (hx : x ≠ .error frameTooLarge) (hf : ∀ a, f a ≠ .error frameTooLarge) :
    (x >>= f) ≠ .error frameTooLarge := by
  rw [Ne, bind_eq_error]
  rintro (h | ⟨a, -, h⟩)
  · exact hx h
  · exact hf a h

theorem failIf_ne_frameTooLarge {condition : Prop} [Decidable condition] {failure : Failure}
    (h : failure ≠ frameTooLarge) : failIf condition failure ≠ .error frameTooLarge :=
  fun hfails => h (failIf_eq_error.mp hfails).2

theorem exactKeys_ne_frameTooLarge (expected : List String) (value : Value) :
    exactKeys expected value ≠ .error frameTooLarge := by
  cases value with
  | object members => exact failIf_ne_frameTooLarge (by decide)
  | _ => exact fun h => by injection h with hfailure; revert hfailure; decide

theorem validatePayload_ne_frameTooLarge (kind : String) (payload : Value) :
    validatePayload kind payload ≠ .error frameTooLarge := by
  have hkeys (expected : List String) (value : Value) {rest : Except Failure Unit}
      (hrest : rest ≠ .error frameTooLarge) :
      (exactKeys expected value >>= fun _ => rest) ≠ .error frameTooLarge :=
    bind_ne_frameTooLarge (exactKeys_ne_frameTooLarge _ _) fun _ => hrest
  -- the version and the time first, and then the members by the kind of the event
  refine bind_ne_frameTooLarge (failIf_ne_frameTooLarge (by decide)) fun _ =>
    bind_ne_frameTooLarge (failIf_ne_frameTooLarge (by decide)) fun _ => ?_
  split_ifs
  · exact hkeys _ _ (failIf_ne_frameTooLarge (by decide))
  · exact hkeys _ _ (failIf_ne_frameTooLarge (by decide))
  · exact hkeys _ _ (bind_ne_frameTooLarge (failIf_ne_frameTooLarge (by decide)) fun _ =>
      hkeys _ _ (failIf_ne_frameTooLarge (by decide)))
  · exact hkeys _ _ (failIf_ne_frameTooLarge (by decide))

theorem parseFrame_ne_frameTooLarge {frame : List Char} (h : byteLength frame ≤ maxFrameBytes) :
    parseFrame parseJson frame ≠ .error frameTooLarge := by
  have hother {failure : Failure} (hne : failure ≠ frameTooLarge) :
      (.error failure : Except Failure Event) ≠ .error frameTooLarge :=
    fun herror => hne (Except.error.inj herror)
  rw [parseFrame, if_neg (Nat.not_lt.mpr h)]
  dsimp only
  split
  · split
    · split
      · exact hother (by decide)
      · exact bind_ne_frameTooLarge (validatePayload_ne_frameTooLarge _ _) fun _ herror => by
          cases herror
    · exact hother (by decide)
  · exact hother (by decide)

/-- Frames within the limit never fail as too large. -/
theorem deliver_ne_frameTooLarge {text : List Char}
    (h : ∀ frame ∈ (splitFrames text).1, byteLength frame ≤ maxFrameBytes) :
    deliver parseJson quiet text ≠ throw frameTooLarge := by
  rw [deliver]
  generalize (splitFrames text).1 = frames at h
  induction frames with
  | nil =>
    simp only [forM_eq_forM, forM_nil, pure_bind]
    split
    · intro heq
      injection heq with hfailure
      revert hfailure
      decide
    · intro heq
      cases heq
  | cons frame frames ih =>
    simp only [forM_eq_forM, forM_cons, bind_assoc] at ih ⊢
    by_cases hframe : Readable parseJson frame
    · rw [takeFrame_quiet hframe, pure_bind]
      exact ih fun next hnext => h next (mem_cons_of_mem _ hnext)
    · obtain ⟨failure, hparse, htake⟩ := takeFrame_of_not_readable parseJson quiet hframe
      rw [htake, ExceptT.bind_throw]
      intro heq
      injection heq with hfailure
      subst hfailure
      exact parseFrame_ne_frameTooLarge (h frame mem_cons_self) hparse

end Quiet

/-! ## Chunks do not matter -/

/-- **The reader treats a chunking like those of one frame a chunk exactly when it fits the
buffer**, for chunkings that keep line ends, whatever the coordinator does with the events. -/
theorem consumeSse_chunks (parseJson : String → Option Value) {chunks : List (List UInt8)}
    (hfit : FramesFit chunks.flatten) (hkeep : KeepsLineEnds chunks) :
    ((∀ (m : Type → Type) [Monad m] [LawfulMonad m] (onEvent : Event → ExceptT Failure m Unit)
        (frames : List (List UInt8)), frames.flatten = chunks.flatten → KeepsLineEnds frames →
        OneFrameEach frames →
        consumeSse parseJson onEvent chunks = consumeSse parseJson onEvent frames) ↔
      BufferFits parseJson chunks) ∧
    (BufferFits parseJson chunks → ¬[13, 10] <:+: chunks.flatten →
      ∀ (m : Type → Type) [Monad m] [LawfulMonad m] (onEvent : Event → ExceptT Failure m Unit),
        consumeSse parseJson onEvent chunks =
          consumeSse parseJson onEvent (chunks.flatten.map fun byte => [byte])) := by
  have halike : BufferFits parseJson chunks → ∀ (m : Type → Type) [Monad m] [LawfulMonad m]
      (onEvent : Event → ExceptT Failure m Unit) (frames : List (List UInt8)),
      frames.flatten = chunks.flatten → KeepsLineEnds frames → OneFrameEach frames →
      consumeSse parseJson onEvent chunks = consumeSse parseJson onEvent frames := by
    intro hfits m _ _ onEvent frames hsame hkeepFrames hone
    have hfitsFrames : BufferFits parseJson frames :=
      bufferFits_of_oneFrameEach parseJson (hsame ▸ hfit) hkeepFrames hone
    rw [consumeSse_eq_deliver parseJson onEvent hkeep hfits,
      consumeSse_eq_deliver parseJson onEvent hkeepFrames hfitsFrames, hsame]
  refine ⟨⟨fun h => ?_, halike⟩, fun hfits hnone m _ _ onEvent => ?_⟩
  · by_contra hnot
    have hunits : BufferFits parseJson (unitChunks chunks.flatten) :=
      bufferFits_of_oneFrameEach parseJson (by rwa [flatten_unitChunks])
        (keepsLineEnds_unitChunks _) (oneFrameEach_unitChunks _)
    have hsame := h Id quiet (unitChunks chunks.flatten) (flatten_unitChunks _)
      (keepsLineEnds_unitChunks _) (oneFrameEach_unitChunks _)
    rw [consumeSse_eq_deliver parseJson quiet (keepsLineEnds_unitChunks _) hunits,
      flatten_unitChunks, consumeSse, consumeChunks_of_not_fits _ rfl chunks hnot] at hsame
    exact deliver_ne_frameTooLarge
      (fun frame hframe => by have := hfit.frames frame hframe; omega) hsame.symm
  · rw [← unitChunks_eq_map hnone]
    exact halike hfits m onEvent _ (flatten_unitChunks _) (keepsLineEnds_unitChunks _)
      (oneFrameEach_unitChunks _)

/-- A coordinator that keeps the ids and kinds of the events it gets. -/
def recordEvent (event : Event) : ExceptT Failure (StateM (List (ℕ × String))) Unit :=
  ExceptT.lift (modify (· ++ [(event.id, event.kind)]))

/-- The bytes of a text of characters of one byte. -/
def asciiBytes (text : String) : List UInt8 := text.toList.map Utf8.asciiByte

/-- The data of an event that an account was claimed. -/
def claimData : String :=
  "\x7b\"eventVersion\":1,\"claimId\":\"c1\",\"state\":\"completed\"," ++
    "\"occurredAt\":\"2026-01-01T00:00:00.000Z\"\x7d"

/-- What `JSON.parse` gives for the data. -/
def parseClaim (data : String) : Option Value :=
  if data = claimData then some (.object [("eventVersion", .number (.finite 1)),
    ("claimId", .string "c1"), ("state", .string "completed"),
    ("occurredAt", .string "2026-01-01T00:00:00.000Z")])
  else none

/-- How the reading of some chunks ends, and the events it gives. -/
def received (chunks : List (List UInt8)) : Except Failure Unit × List (ℕ × String) :=
  ((consumeSse parseClaim recordEvent chunks).run.run []).run

/-- The first line of an event without the LF of its line end. -/
def cutLine : List UInt8 := asciiBytes "id: 7\r"

/-- The rest of the event. -/
def cutRest : List UInt8 :=
  asciiBytes ("\nevent: account-claim\r\ndata: " ++ claimData ++ "\r\n\r\n")

theorem framesFit_event : FramesFit (cutLine ++ cutRest) := by
  have hfit : (∀ frame ∈ (splitFrames (streamText (cutLine ++ cutRest))).1,
      byteLength frame + 2 ≤ maxFrameBytes) ∧
      byteLength (openText (streamText (cutLine ++ cutRest))) ≤ maxFrameBytes := by
    decide +kernel
  exact ⟨hfit.1, hfit.2⟩

/-- The event is the same in one chunk and byte by byte. -/
theorem consumeSse_chunks_event :
    consumeSse parseClaim recordEvent [cutLine ++ cutRest] =
      consumeSse parseClaim recordEvent (unitChunks (cutLine ++ cutRest)) := by
  have hone : [cutLine ++ cutRest].flatten = cutLine ++ cutRest := append_nil _
  have hkeep : KeepsLineEnds [cutLine ++ cutRest] := by
    rintro (_ | ⟨first, before⟩) after hchunks ⟨hlast, hhead⟩
    · cases hlast
    · injection hchunks with _ hafter
      rw [(nil_eq_append_iff.mp hafter).2] at hhead
      cases hhead
  have hfits : BufferFits parseClaim [cutLine ++ cutRest] := by
    have hbytes : ∃ text rest, texts Utf8.decoder.start [cutLine ++ cutRest] = [text, rest] ∧
        byteLength text ≤ maxFrameBytes * 2 ∧
        byteLength (openText text ++ rest) ≤ maxFrameBytes * 2 :=
      ⟨_, _, rfl, by decide +kernel⟩
    obtain ⟨text, rest, htexts, htext, hrest⟩ := hbytes
    rw [BufferFits, htexts]
    exact (fitsFrom_cons parseClaim rfl).mpr ⟨htext, fun _ =>
      (fitsFrom_cons parseClaim (openText_openText _)).mpr ⟨hrest, fun _ before next after hnil =>
        absurd hnil.symm (append_ne_nil_of_right_ne_nil before (by simp))⟩⟩
  have hfit : FramesFit [cutLine ++ cutRest].flatten := by
    rw [hone]
    exact framesFit_event
  have hchunks := consumeSse_chunks parseClaim hfit hkeep
  exact hchunks.1.mpr hfits _ recordEvent _ (by rw [flatten_unitChunks, hone])
    (keepsLineEnds_unitChunks _) (oneFrameEach_unitChunks _)

/-- **A cut inside a CR LF ends a frame**: the event is lost and the stream fails. -/
theorem consumeSse_cut : FramesFit (cutLine ++ cutRest) ∧
    received [cutLine ++ cutRest] = (.ok (), [(7, "account-claim")]) ∧
    received [cutLine, cutRest] = (.error frameInvalid, []) := by
  refine ⟨framesFit_event, ?_, ?_⟩
  · simp only [received, consumeSse, consumeChunks, takeText_eq]
    decide +kernel
  · simp only [received, consumeSse, consumeChunks, takeText_eq]
    decide +kernel

end HomelabInventory.EventStream
