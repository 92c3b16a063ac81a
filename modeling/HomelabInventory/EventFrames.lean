import HomelabInventory.EventStream

/-!
# Frames of a text

A text is cut into frames at its blank lines. Cutting goes on after an append where it
left off, and normal line ends come piece by piece unless a CR and its LF come apart.
-/

namespace HomelabInventory.EventStream

open List
open CatalogProtocol (Value)

/-! ## Line ends -/

variable {first frame second text : List Char}

/-- **Line ends are normalized piece by piece** unless a CR LF is cut. -/
theorem normalizeLineEnds_append (h : ¬(first.getLast? = some '\r' ∧ second.head? = some '\n')) :
    normalizeLineEnds (first ++ second) = normalizeLineEnds first ++ normalizeLineEnds second := by
  fun_induction normalizeLineEnds first with
  | case1 => rfl
  | case2 c =>
    cases second with
    | nil => simp [normalizeLineEnds]
    | cons d rest =>
      have hcut : ¬(c = '\r' ∧ d = '\n') := by simpa using h
      rw [singleton_append, normalizeLineEnds]
      split
      · next hc =>
        rw [if_neg (fun hd => hcut ⟨hc, hd⟩)]
        rfl
      · rfl
  | case3 rest ih =>
    have hrest : ¬(rest.getLast? = some '\r' ∧ second.head? = some '\n') := by
      rintro ⟨hlast, hhead⟩
      cases rest with
      | nil => cases hlast
      | cons e more => exact h ⟨by rwa [getLast?_cons_cons, getLast?_cons_cons], hhead⟩
    rw [cons_append, cons_append, normalizeLineEnds, if_pos rfl, if_pos rfl, ih hrest]
    rfl
  | case4 d rest hd ih =>
    rw [cons_append, cons_append, normalizeLineEnds, if_pos rfl, if_neg hd,
      ← cons_append, ih (by rwa [getLast?_cons_cons] at h)]
    rfl
  | case5 c d rest hc ih =>
    rw [cons_append, cons_append, normalizeLineEnds, if_neg hc, ← cons_append,
      ih (by rwa [getLast?_cons_cons] at h)]
    rfl

theorem length_normalizeLineEnds_le (text : List Char) :
    (normalizeLineEnds text).length ≤ text.length := by
  fun_induction normalizeLineEnds text with
  | case1 => exact le_rfl
  | case2 c => exact le_rfl
  | case3 rest ih =>
    simp only [length_cons]
    omega
  | case4 d rest hd ih =>
    simp only [length_cons] at ih ⊢
    omega
  | case5 c d rest hc ih =>
    simp only [length_cons] at ih ⊢
    omega

/-! ## Frames -/

/-- Put a character before the first frame, or before the open text when there is none. -/
def addChar (c : Char) : List (List Char) × List Char → List (List Char) × List Char
  | ([], rest) => ([], c :: rest)
  | (frame :: frames, rest) => ((c :: frame) :: frames, rest)

/-- The frames of a text, each closed by a blank line, and the open text after them. -/
def splitFrames : List Char → List (List Char) × List Char
  | c :: d :: rest =>
    if c = '\n' ∧ d = '\n' then ([] :: (splitFrames rest).1, (splitFrames rest).2)
    else addChar c (splitFrames (d :: rest))
  | text => ([], text)

/-- The open text: what comes after the last complete frame. -/
def openText (text : List Char) : List Char := (splitFrames text).2

theorem splitFrames_of_nil (h : (splitFrames text).1 = []) : splitFrames text = ([], text) := by
  fun_induction splitFrames text with
  | case1 rest ih => cases h
  | case2 c d rest hcd ih =>
    cases hsplit : splitFrames (d :: rest) with
    | mk frames more =>
      rw [hsplit] at h ih
      cases frames with
      | nil =>
        have hmore : more = d :: rest := by simpa using ih rfl
        rw [hmore]
        rfl
      | cons frame frames => cases h
  | case3 text hshape => rfl

/-- **Cutting goes on where it left off.** -/
theorem splitFrames_append (first second : List Char) :
    splitFrames (first ++ second) =
      ((splitFrames first).1 ++ (splitFrames (openText first ++ second)).1,
        openText (openText first ++ second)) := by
  fun_induction splitFrames first with
  | case1 c d rest hcd ih =>
    obtain ⟨rfl, rfl⟩ := hcd
    have hopen : openText ('\n' :: '\n' :: rest) = openText rest := by
      rw [openText, splitFrames, if_pos ⟨rfl, rfl⟩]
      rfl
    rw [hopen, cons_append, cons_append, splitFrames, if_pos ⟨rfl, rfl⟩, ih]
    rfl
  | case2 c d rest hcd ih =>
    have hopen : openText (c :: d :: rest) = (addChar c (splitFrames (d :: rest))).2 := by
      rw [openText, splitFrames, if_neg hcd]
    rw [hopen]
    by_cases hnil : (splitFrames (d :: rest)).1 = []
    · rw [splitFrames_of_nil hnil]
      rfl
    · rw [cons_append, cons_append, splitFrames, if_neg hcd, ← cons_append, ih,
        openText]
      generalize splitFrames (d :: rest) = cut at hnil ⊢
      obtain ⟨_ | ⟨frame, frames⟩, more⟩ := cut
      · exact absurd rfl hnil
      · rfl
  | case3 text hshape =>
    have hopen : openText text = text := by
      rw [openText]
      unfold splitFrames
      split
      · exact (hshape _ _ _ rfl).elim
      · rfl
    rw [hopen]
    rfl

theorem openText_append (first second : List Char) :
    openText (first ++ second) = openText (openText first ++ second) := by
  rw [openText, splitFrames_append]

/-- The open text has no complete frame. -/
@[simp] theorem splitFrames_openText (text : List Char) :
    splitFrames (openText text) = ([], openText text) := by
  have happend := splitFrames_append text []
  rw [append_nil, append_nil] at happend
  apply splitFrames_of_nil
  have hframes := congrArg Prod.fst happend
  simpa using hframes

@[simp] theorem openText_openText (text : List Char) : openText (openText text) = openText text := by
  rw [openText, splitFrames_openText]

/-- A text is its frames, each with its blank line, and the open text. -/
theorem join_splitFrames (text : List Char) :
    ((splitFrames text).1.map (· ++ ['\n', '\n'])).flatten ++ openText text = text := by
  rw [openText]
  fun_induction splitFrames text with
  | case1 c d rest hcd ih =>
    obtain ⟨rfl, rfl⟩ := hcd
    simpa using ih
  | case2 c d rest hcd ih =>
    generalize splitFrames (d :: rest) = cut at ih ⊢
    obtain ⟨_ | ⟨frame, frames⟩, more⟩ := cut
    · simpa [addChar] using ih
    · simpa [addChar] using ih
  | case3 text hshape => rfl

/-- An open text that goes on to a frame is a beginning of it, with one line end at most. -/
theorem prefix_of_splitFrames {frames : List (List Char)} (hopen : (splitFrames first).1 = [])
    (h : (splitFrames (first ++ second)).1 = frame :: frames) : first <+: frame ++ ['\n'] := by
  induction first generalizing frame with
  | nil => exact nil_prefix
  | cons c rest ih =>
    cases rest with
    | nil =>
      cases second with
      | nil => cases h
      | cons d more =>
        rw [singleton_append, splitFrames] at h
        split at h
        · next hcd =>
          injection h with hframe
          rw [← hframe, hcd.1]
          exact prefix_rfl
        · generalize splitFrames (d :: more) = cut at h
          obtain ⟨_ | ⟨frame', frames'⟩, open'⟩ := cut
          · cases h
          · injection h with hframe
            rw [← hframe]
            exact ⟨frame' ++ ['\n'], rfl⟩
    | cons d more =>
      rw [splitFrames] at hopen
      rw [cons_append, cons_append, splitFrames] at h
      split at hopen
      · cases hopen
      · next hcd =>
        rw [if_neg hcd] at h
        have hrest : (splitFrames (d :: more)).1 = [] := by
          generalize splitFrames (d :: more) = cut at hopen
          obtain ⟨_ | ⟨frame', frames'⟩, open'⟩ := cut
          · rfl
          · cases hopen
        rw [← cons_append] at h
        cases hcut : splitFrames (d :: more ++ second) with
        | mk frames' open' =>
          rw [hcut] at h
          cases frames' with
          | nil => cases h
          | cons frame' frames' =>
            injection h with hframe hframes
            rw [← hframe]
            exact cons_prefix_cons.mpr ⟨rfl, ih hrest (by rw [hcut, ← hframes])⟩

/-! ## Draining the buffer -/

theorem splitFrames_of_cutFrame_none (h : cutFrame text = none) :
    splitFrames text = ([], text) := by
  fun_induction cutFrame text with
  | case1 rest => cases h
  | case2 c d rest hcd ih =>
    rw [splitFrames, if_neg hcd, ih (by simpa using h)]
    rfl
  | case3 text hshape =>
    unfold splitFrames
    split
    · exact (hshape _ _ _ rfl).elim
    · rfl

theorem splitFrames_of_cutFrame {text frame rest : List Char}
    (h : cutFrame text = some (frame, rest)) :
    splitFrames text = (frame :: (splitFrames rest).1, openText rest) := by
  fun_induction cutFrame text generalizing frame with
  | case1 c d more hcd =>
    cases h
    rw [splitFrames, if_pos hcd]
    rfl
  | case2 c d more hcd ih =>
    cases hcut : cutFrame (d :: more) with
    | none => rw [hcut] at h; cases h
    | some cut =>
      obtain ⟨frame', rest'⟩ := cut
      rw [hcut] at h
      cases h
      rw [splitFrames, if_neg hcd, ih hcut]
      rfl
  | case3 text hshape => cases h

section Reader

variable {m : Type → Type} [Monad m] [LawfulMonad m]
  (parseJson : String → Option Value) (onEvent : Event → ExceptT Failure m Unit)

/-- **Draining hands on the frames of the buffer in order and leaves its open text.** -/
theorem drainFrames_eq (buffer : List Char) :
    drainFrames parseJson onEvent buffer = (do
      (splitFrames buffer).1.forM (takeFrame parseJson onEvent)
      pure (openText buffer)) := by
  induction hlength : buffer.length using Nat.strong_induction_on generalizing buffer with
  | _ n ih =>
    subst hlength
    rw [drainFrames]
    split
    · next hcut =>
      rw [openText, splitFrames_of_cutFrame_none hcut]
      simp
    · next frame rest hcut =>
      have hrest := ih rest.length (length_of_cutFrame hcut) rest rfl
      have hopen : openText buffer = openText rest := by
        rw [openText, splitFrames_of_cutFrame hcut]
      rw [hopen, splitFrames_of_cutFrame hcut]
      simp only [hrest, forM_eq_forM, forM_cons, bind_assoc]

end Reader

end HomelabInventory.EventStream
