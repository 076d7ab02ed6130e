import LineLexer.Input.Newline

/-! Lines taken off a text that arrives in chunks. A line ends with its newline; what follows
the last newline is a line without one, and the empty line marks the end of the data. When a
chunk fails, the part of the line before it is lost and reading goes on after it. -/

namespace LineLexer.Input

def splitLine? (s : Text) : Option (Text × Text) :=
  match s.dropWhile (· ≠ '\n') with
  | [] => none
  | newline :: rest => some (s.takeWhile (· ≠ '\n') ++ [newline], rest)

structure LineStream where
  buffer : Text := []
  feed : Feed Text
  /-- set when the device fails from now on, with the device's words -/
  broken : Option Text := none

namespace LineStream

structure Rest where
  buffer : Text
  results : List (Except Fault Text)

def lineFrom (last : Option Fault) : List (Except Fault Text) → Text → Except Fault Text × Rest
  | results, buffer =>
    match splitLine? buffer with
    | some (line, rest) => (.ok line, ⟨rest, results⟩)
    | none => match results with
      | [] => match last with
        | none => (.ok buffer, ⟨[], []⟩)
        | some fault => (.error fault, ⟨[], []⟩)
      | .error fault :: more => (.error fault, ⟨[], more⟩)
      | .ok piece :: more =>
        let (line, rest) := lineFrom last more piece
        (line.map (buffer ++ ·), rest)

def readLine (s : LineStream) : Except Fault Text × LineStream :=
  match s.broken with
  | some message => (.error (.device message), s)
  | none =>
    let (line, rest) := lineFrom s.feed.last s.feed.results s.buffer
    (line, { s with buffer := rest.buffer, feed := { s.feed with results := rest.results } })

def text (s : LineStream) : Text := s.buffer ++ s.feed.pieces.flatten

end LineStream

def withFinalNewline (s : Text) : Text :=
  if s.isEmpty || s.getLast? == some '\n' then s else s ++ ['\n']

@[simp] theorem withFinalNewline_nil : withFinalNewline [] = [] := rfl

theorem withFinalNewline_append {s : Text} (h : s.getLast? = some '\n') (t : Text) :
    withFinalNewline (s ++ t) = s ++ withFinalNewline t := by
  have hs : s ≠ [] := by rintro rfl; simp at h
  cases t with
  | nil => simp [withFinalNewline, h]
  | cons c t =>
    have : (s ++ c :: t).getLast? = (c :: t).getLast? := by
      rw [List.getLast?_append]
      cases h' : (c :: t).getLast? with
      | none => simp at h'
      | some d => rfl
    simp only [withFinalNewline, this]
    split <;> simp_all

theorem splitLine?_eq_some {s line rest : Text} (h : splitLine? s = some (line, rest)) :
    s = line ++ rest ∧ line.getLast? = some '\n' := by
  unfold splitLine? at h
  split at h
  · simp at h
  · rename_i c r hdrop
    obtain ⟨rfl, rfl⟩ : s.takeWhile (· ≠ '\n') ++ [c] = line ∧ r = rest := by simpa using h
    have hc : c = '\n' := by
      have := List.head?_dropWhile_not (fun x : Char => decide (x ≠ '\n')) s
      rw [hdrop] at this
      simpa using this
    have hs := List.takeWhile_append_dropWhile (p := fun x : Char => decide (x ≠ '\n')) (l := s)
    rw [hdrop] at hs
    exact ⟨by simpa using hs.symm, by simp [hc]⟩

theorem splitLine?_eq_none {s : Text} (h : splitLine? s = none) : '\n' ∉ s := by
  unfold splitLine? at h
  split at h
  · rename_i hdrop
    intro hmem
    have hs := List.takeWhile_append_dropWhile (p := fun x : Char => decide (x ≠ '\n')) (l := s)
    rw [hdrop, List.append_nil] at hs
    have hall := List.all_takeWhile (p := fun x : Char => decide (x ≠ '\n')) (l := s)
    rw [hs] at hall
    simpa using List.all_eq_true.1 hall _ hmem
  · simp at h

namespace LineStream

theorem lineFrom_ok (last : Option Fault) (results : List (Except Fault Text)) :
    ∀ {buffer line : Text} {rest : Rest}, lineFrom last results buffer = (.ok line, rest) →
      buffer ++ (⟨results, last⟩ : Feed Text).pieces.flatten =
          line ++ (rest.buffer ++ (⟨rest.results, last⟩ : Feed Text).pieces.flatten) ∧
        (line.getLast? = some '\n' ∨ rest.buffer = [] ∧ rest.results = []) := by
  induction results with
  | nil =>
    intro buffer line rest h
    unfold lineFrom at h
    split at h
    · rename_i l r hsplit
      obtain ⟨hs, hl⟩ := splitLine?_eq_some hsplit
      simp only [Prod.mk.injEq, Except.ok.injEq] at h
      obtain ⟨rfl, rfl⟩ := h
      simp [hs, hl, Feed.pieces]
    · cases last <;> simp only [Prod.mk.injEq, Except.ok.injEq, reduceCtorEq, false_and] at h
      obtain ⟨rfl, rfl⟩ := h
      simp [Feed.pieces]
  | cons result results ih =>
    intro buffer line rest h
    unfold lineFrom at h
    split at h
    · rename_i l r hsplit
      obtain ⟨hs, hl⟩ := splitLine?_eq_some hsplit
      simp only [Prod.mk.injEq, Except.ok.injEq] at h
      obtain ⟨rfl, rfl⟩ := h
      simp [hs, hl]
    · rename_i hnone
      cases result with
      | error fault => simp at h
      | ok piece =>
        cases hrec : lineFrom last results piece with
        | mk r rest' =>
          cases r with
          | error fault => simp [hrec, Except.map] at h
          | ok tail =>
            simp only [hrec, Except.map, Prod.mk.injEq, Except.ok.injEq] at h
            obtain ⟨rfl, rfl⟩ := h
            obtain ⟨htext, hend⟩ := ih hrec
            refine ⟨?_, ?_⟩
            · simpa [Feed.pieces] using htext
            · rcases hend with hl | hr
              · left
                rw [List.getLast?_append, hl]
                rfl
              · exact .inr hr

theorem withFinalNewline_text {s t : LineStream} {line : Text}
    (h : s.readLine = (.ok line, t)) :
    withFinalNewline s.text = withFinalNewline line ++ withFinalNewline t.text := by
  unfold readLine at h
  split at h
  · simp at h
  · cases hfrom : lineFrom s.feed.last s.feed.results s.buffer with
    | mk r rest =>
      simp only [hfrom, Prod.mk.injEq] at h
      obtain ⟨rfl, rfl⟩ := h
      obtain ⟨htext, hend⟩ := lineFrom_ok _ _ hfrom
      have hs : s.text = line ++ (rest.buffer ++ (⟨rest.results, s.feed.last⟩ : Feed Text).pieces.flatten) :=
        htext
      rw [hs]
      rcases hend with hl | ⟨hb, hr⟩
      · rw [withFinalNewline_append hl]
        simp [withFinalNewline, hl, text]
      · simp [hb, hr, text, Feed.pieces]

theorem text_eq_nil_of_readLine {s t : LineStream} (h : s.readLine = (.ok [], t)) :
    t.text = [] := by
  unfold readLine at h
  split at h
  · simp at h
  · cases hfrom : lineFrom s.feed.last s.feed.results s.buffer with
    | mk r rest =>
      simp only [hfrom, Prod.mk.injEq] at h
      obtain ⟨rfl, rfl⟩ := h
      obtain ⟨-, hl | ⟨hb, hr⟩⟩ := lineFrom_ok _ _ hfrom
      · simp at hl
      · simp [text, hb, hr, Feed.pieces]

end LineStream
end LineLexer.Input
