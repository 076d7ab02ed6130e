import LineLexer.Reader.Open

/-!
# What is read of a file that decodes

A text may arrive in chunks: the line ends of the chunks, a return at the end
of one held back for the next, are the line ends of the whole text. Where no
read fails, a line stream then hands out the lines of the text one after the
other, and each newline in it ends a line.
-/

namespace LineLexer.Input

theorem normalize_append {s t : Text} (h : s.getLast? = some '\r' → t.head? ≠ some '\n') :
    normalize (s ++ t) = normalize s ++ normalize t := by
  have hlast : ∀ {c : Char} {r : Text}, r.getLast? = some '\r' → (c :: r).getLast? = some '\r' := by
    intro c r hr
    simp [List.getLast?_cons, hr]
  fun_induction normalize s with
  | case1 => rfl
  | case2 r ih =>
    have hr := ih fun hl => h (hlast (hlast hl))
    simp [normalize, hr]
  | case3 r hr ih =>
    have hrt := ih fun hl => h (hlast hl)
    have hnot : ∀ r' : Text, r ++ t = '\n' :: r' → False := by
      intro r' heq
      cases r with
      | nil =>
        have ht : t = '\n' :: r' := heq
        exact h rfl (by simp [ht])
      | cons d r =>
        injection heq with hd htail
        exact hr r (by rw [hd])
    rw [List.cons_append, normalize.eq_3 _ hnot, hrt]
    rfl
  | case4 c r _ hc ih =>
    have hrt := ih fun hl => h (hlast hl)
    rw [List.cons_append, normalize.eq_4 _ _ (fun _ h _ => hc h) hc, hrt]
    rfl

def heldText (held : Bool) : Text := if held then ['\r'] else []

theorem normalizeChunk_eq (held : Bool) (chunk : Text) (rest : Text) :
    (normalizeChunk held chunk).1 ++ normalize (heldText (normalizeChunk held chunk).2 ++ rest) =
      normalize (heldText held ++ (chunk ++ rest)) := by
  unfold normalizeChunk
  split
  · rename_i hempty
    have hnil : chunk = [] := by simpa using hempty
    simp [hnil]
  · have hs : (if held then '\r' :: chunk else chunk) = heldText held ++ chunk := by
      cases held <;> rfl
    simp only [hs]
    rw [← List.append_assoc]
    split
    · rename_i hreturn
      obtain ⟨front, hfront⟩ := List.getLast?_eq_some_iff.1 hreturn
      rw [hfront, List.dropLast_concat, List.append_assoc]
      exact (normalize_append (by simp [heldText])).symm
    · rename_i hno
      exact (normalize_append fun h => absurd h hno).symm

theorem pieces_normalizeResults (chunks : List Text) (held : Bool) :
    ∃ pieces : List Text, normalizeResults none held (chunks.map .ok) = pieces.map .ok ∧
      pieces.flatten = normalize (heldText held ++ chunks.flatten) := by
  induction chunks generalizing held with
  | nil =>
    cases held with
    | false => exact ⟨[], rfl, rfl⟩
    | true => exact ⟨[['\n']], rfl, rfl⟩
  | cons chunk chunks ih =>
    obtain ⟨pieces, hresults, htext⟩ := ih (normalizeChunk held chunk).2
    refine ⟨(normalizeChunk held chunk).1 :: pieces, ?_, ?_⟩
    · simp [normalizeResults, hresults]
    · rw [List.flatten_cons, htext, List.flatten_cons]
      exact normalizeChunk_eq held chunk chunks.flatten

namespace Feed

theorem Clean.exists_chunks {α : Type} {f : Feed α} (h : f.Clean) :
    ∃ chunks : List α, f = ⟨chunks.map .ok, none⟩ := by
  have hresults : ∀ results : List (Except Fault α), (∀ r ∈ results, ∃ piece, r = .ok piece) →
      ∃ chunks : List α, results = chunks.map .ok := by
    intro results
    induction results with
    | nil => exact fun _ => ⟨[], rfl⟩
    | cons r results ih =>
      intro hall
      obtain ⟨piece, rfl⟩ := hall r (by simp)
      obtain ⟨chunks, rfl⟩ := ih fun r hr => hall r (by simp [hr])
      exact ⟨piece :: chunks, rfl⟩
  obtain ⟨chunks, hchunks⟩ := hresults f.results h.2
  exact ⟨chunks, by rw [← hchunks, ← h.1]⟩

theorem clean_map_ok {α : Type} (chunks : List α) : Clean ⟨chunks.map .ok, none⟩ := by
  refine ⟨rfl, ?_⟩
  intro r hr
  obtain ⟨piece, -, rfl⟩ := List.mem_map.1 hr
  exact ⟨piece, rfl⟩

@[simp] theorem pieces_map_ok {α : Type} (chunks : List α) :
    pieces ⟨chunks.map .ok, none⟩ = chunks := by
  rw [pieces, List.filterMap_map]
  exact List.filterMap_some

/-- Normalizing chunk by chunk is normalizing the whole text. -/
theorem pieces_normalize {f : Feed Text} (h : f.Clean) :
    f.normalize.Clean ∧ f.normalize.pieces.flatten = Input.normalize f.pieces.flatten := by
  obtain ⟨chunks, rfl⟩ := h.exists_chunks
  obtain ⟨pieces, hresults, htext⟩ := pieces_normalizeResults chunks false
  have hf : Feed.normalize ⟨chunks.map .ok, none⟩ = ⟨pieces.map .ok, none⟩ := by
    simp only [Feed.normalize, hresults]
  rw [hf]
  refine ⟨clean_map_ok pieces, ?_⟩
  rw [pieces_map_ok, pieces_map_ok, htext]
  rfl

end Feed

theorem newline_notMem_dropLast {s line rest : Text} (h : splitLine? s = some (line, rest)) :
    '\n' ∉ line.dropLast := by
  unfold splitLine? at h
  split at h
  · simp at h
  · simp only [Option.some.injEq, Prod.mk.injEq] at h
    rw [← h.1, List.dropLast_concat]
    intro hmem
    have hall := List.all_takeWhile (p := fun c : Char => decide (c ≠ '\n')) (l := s)
    simpa using List.all_eq_true.1 hall _ hmem

namespace LineStream

def Clean (s : LineStream) : Prop := s.broken = none ∧ s.feed.Clean

theorem newline_notMem_lineFrom (last : Option Fault) (results : List (Except Fault Text)) :
    ∀ {buffer line : Text} {rest : Rest}, lineFrom last results buffer = (.ok line, rest) →
      '\n' ∉ line.dropLast := by
  induction results with
  | nil =>
    intro buffer line rest h
    unfold lineFrom at h
    split at h
    · rename_i l r hsplit
      cases h
      exact newline_notMem_dropLast hsplit
    · rename_i hnone
      cases last <;> cases h
      exact fun hmem => splitLine?_eq_none hnone (List.dropLast_subset _ hmem)
  | cons result results ih =>
    intro buffer line rest h
    unfold lineFrom at h
    split at h
    · rename_i l r hsplit
      cases h
      exact newline_notMem_dropLast hsplit
    · rename_i hnone
      have hbuffer := splitLine?_eq_none hnone
      cases result with
      | error fault => cases h
      | ok piece =>
        cases hrec : lineFrom last results piece with
        | mk x rest' =>
          cases x with
          | error fault => simp [hrec, Except.map] at h
          | ok tail =>
            simp only [hrec, Except.map, Prod.mk.injEq, Except.ok.injEq] at h
            obtain ⟨rfl, rfl⟩ := h
            by_cases hnil : tail = []
            · rw [hnil, List.append_nil]
              exact fun hmem => hbuffer (List.dropLast_subset _ hmem)
            · rw [List.dropLast_append_of_ne_nil hnil, List.mem_append, not_or]
              exact ⟨hbuffer, ih hrec⟩

theorem exists_body_of_readLine {s t : LineStream} {line : Text} (h : s.readLine = (.ok line, t))
    (hne : line ≠ []) : ∃ body, withFinalNewline line = body ++ ['\n'] ∧ '\n' ∉ body := by
  have hlast : '\n' ∉ line.dropLast := by
    unfold readLine at h
    split at h
    · cases h
    · cases hfrom : lineFrom s.feed.last s.feed.results s.buffer with
      | mk x rest =>
        simp only [hfrom, Prod.mk.injEq] at h
        exact newline_notMem_lineFrom _ _ (h.1 ▸ hfrom)
  have hsplit := (List.dropLast_concat_getLast hne).symm
  have hget := List.getLast?_eq_some_getLast hne
  by_cases hnl : line.getLast hne = '\n'
  · rw [hnl] at hsplit hget
    refine ⟨line.dropLast, ?_, hlast⟩
    rw [← hsplit]
    simp [withFinalNewline, hget]
  · refine ⟨line, ?_, ?_⟩
    · simp [withFinalNewline, hget, hnl, hne]
    · rw [hsplit]
      simp [hlast, Ne.symm hnl]

theorem lineFrom_map_ok (chunks : List Text) (buffer : Text) :
    ∃ (line rest : Text) (chunks' : List Text),
      lineFrom none (chunks.map .ok) buffer = (.ok line, ⟨rest, chunks'.map .ok⟩) := by
  induction chunks generalizing buffer with
  | nil =>
    cases hsplit : splitLine? buffer with
    | some split => exact ⟨split.1, split.2, [], by simp [lineFrom, hsplit]⟩
    | none => exact ⟨buffer, [], [], by simp [lineFrom, hsplit]⟩
  | cons chunk chunks ih =>
    cases hsplit : splitLine? buffer with
    | some split => exact ⟨split.1, split.2, chunk :: chunks, by simp [lineFrom, hsplit]⟩
    | none =>
      obtain ⟨line, rest, chunks', hline⟩ := ih chunk
      exact ⟨buffer ++ line, rest, chunks', by simp [lineFrom, hsplit, hline, Except.map]⟩

theorem readLine_of_clean {s : LineStream} (h : s.Clean) :
    ∃ line t, s.readLine = (.ok line, t) ∧ t.Clean ∧
      (line ≠ [] → ∃ body, withFinalNewline line = body ++ ['\n'] ∧ '\n' ∉ body) := by
  obtain ⟨hbroken, hfeed⟩ := h
  obtain ⟨chunks, hchunks⟩ := hfeed.exists_chunks
  obtain ⟨line, rest, chunks', hline⟩ := lineFrom_map_ok chunks s.buffer
  have hread : s.readLine =
      (.ok line, { s with buffer := rest, feed := ⟨chunks'.map .ok, none⟩ }) := by
    simp [readLine, hbroken, hchunks, hline]
  exact ⟨line, _, hread, ⟨hbroken, Feed.clean_map_ok chunks'⟩, exists_body_of_readLine hread⟩

end LineStream
end LineLexer.Input

namespace LineLexer

open Input (withFinalNewline)

/-- All of a file's bytes decode, to a text that is `source` once its line ends are normalized. -/
def DecodesTo (fs : FileSystem) (file : Text) (config : Config) (source : Text) : Prop :=
  ∃ feed notes, Reader.Opening.decoded fs file config [] = .ok feed notes ∧ feed.Clean ∧
    source = Input.normalize feed.pieces.flatten

theorem decodesTo_of_chunk {fs : FileSystem} {file source : Text} {config : Config} (text : Text)
    (notes : List Note) (h : Reader.Opening.decoded fs file config [] = .ok ⟨[.ok text], none⟩ notes)
    (hsource : source = Input.normalize text) : DecodesTo fs file config source := by
  refine ⟨_, notes, h, ⟨rfl, by simp⟩, ?_⟩
  simp [Input.Feed.pieces, hsource]

namespace Reader

theorem text_of_decodesTo {fs : FileSystem} {file source : Text} {config : Config}
    (h : DecodesTo fs file config source) :
    ∃ feed notes, Opening.text fs file config [] = .ok feed notes ∧ feed.Clean ∧
      feed.pieces.flatten = source := by
  obtain ⟨feed, notes, hopen, hclean, rfl⟩ := h
  obtain ⟨hclean', htext⟩ := Input.Feed.pieces_normalize hclean
  refine ⟨feed.normalize, notes, ?_, hclean', htext⟩
  show EStateM.bind _ _ _ = _
  simp [EStateM.bind, hopen, pure, EStateM.pure]

end Reader
end LineLexer
