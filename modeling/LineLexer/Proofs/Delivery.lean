import LineLexer.Input.CharStream
import LineLexer.Proofs.Decoding

/-!
# What a stream of characters delivers

A stream whose reads do not fail delivers a text, one character a read, and
reports the end from then on. Without the carriage returns the next character
is the first of the text that is visible.
-/

namespace LineLexer.Input

def visible (t : Text) : Text := t.filter (· ≠ '\r')

theorem visible_cons_return (t : Text) : visible ('\r' :: t) = visible t := by
  simp [visible]

theorem visible_cons {c : Char} (hc : c ≠ '\r') (t : Text) : visible (c :: t) = c :: visible t := by
  simp [visible, hc]

theorem nextChunk_map_ok (chunks : List Text) :
    ∃ chunk rest, nextChunk none (chunks.map .ok) = (.ok chunk, rest.map .ok) ∧
      chunk ++ rest.flatten = chunks.flatten ∧ (chunk = [] → rest = []) := by
  induction chunks with
  | nil => exact ⟨[], [], rfl, rfl, fun _ => rfl⟩
  | cons chunk chunks ih =>
    cases chunk with
    | nil => exact ih
    | cons c r => exact ⟨c :: r, chunks, rfl, rfl, fun h => absurd h (List.cons_ne_nil c r)⟩

namespace CharStream

def text : CharStream → Text
  | memory s => s.text
  | decoded s => s.buffer ++ s.feed.pieces.flatten
  | closed _ => []

/-- The reads to come deliver a text and do not fail. -/
def Delivers : CharStream → Text → Prop
  | memory s, t => s.text = t ∧ ∀ n, s.reads ≤ n → s.fails n = false
  | decoded s, t => s.feed.Clean ∧ s.buffer ++ s.feed.pieces.flatten = t
  | closed _, _ => False

theorem Delivers.read {s : CharStream} {t : Text} (h : s.Delivers t) :
    ∃ s', s.read = (.ok t.head?, s') ∧ s'.Delivers t.tail := by
  match s with
  | memory s =>
    obtain ⟨rfl, hfails⟩ := h
    have hlater : ∀ n, s.reads + 1 ≤ n → s.fails n = false := fun n hn => hfails n (by omega)
    have hnow := hfails s.reads (Nat.le_refl _)
    cases htext : s.text with
    | nil => exact ⟨memory { s with reads := s.reads + 1 },
        by simp [CharStream.read, MemoryStream.read, hnow, htext], htext, hlater⟩
    | cons c r => exact ⟨memory { s with text := r, reads := s.reads + 1 },
        by simp [CharStream.read, MemoryStream.read, hnow, htext], rfl, hlater⟩
  | decoded s =>
    obtain ⟨hclean, rfl⟩ := h
    cases hbuffer : s.buffer with
    | cons c r => exact ⟨decoded { s with buffer := r },
        by simp [CharStream.read, FeedStream.read, hbuffer], hclean, by simp⟩
    | nil =>
      obtain ⟨chunks, hchunks⟩ := hclean.exists_chunks
      obtain ⟨chunk, rest, hnext, hflat, hend⟩ := nextChunk_map_ok chunks
      rw [hchunks, Feed.pieces_map_ok, ← hflat]
      cases chunk with
      | nil =>
        refine ⟨decoded { s with feed := ⟨rest.map .ok, none⟩ }, ?_, Feed.clean_map_ok rest, ?_⟩
        · simp [CharStream.read, FeedStream.read, hbuffer, hchunks, hnext, hend rfl]
        · simp [hbuffer, hend rfl, Feed.pieces]
      | cons c r =>
        refine ⟨decoded ⟨r, ⟨rest.map .ok, none⟩⟩, ?_, Feed.clean_map_ok rest, ?_⟩
        · simp [CharStream.read, FeedStream.read, hbuffer, hchunks, hnext]
        · simp
  | closed n => exact h.elim

theorem Delivers.size {s : CharStream} {t : Text} (h : s.Delivers t) : s.size = t.length := by
  match s with
  | memory s =>
    obtain ⟨rfl, -⟩ := h
    rfl
  | decoded s =>
    obtain ⟨-, rfl⟩ := h
    exact (List.length_append).symm
  | closed n => exact h.elim

theorem readVisible_eq (s : CharStream) : s.readVisible = match s.read with
    | (.ok (some c), t) => if c = '\r' then t.readVisible else (.ok (some c), t)
    | result => result := by
  rw [readVisible]
  split <;> rename_i hread <;> rw [hread]

/-- The reads to come deliver a text once its carriage returns are dropped. -/
def Shows (s : CharStream) (v : Text) : Prop := ∃ t, s.Delivers t ∧ visible t = v

theorem Delivers.text {s : CharStream} {t : Text} (h : s.Delivers t) : s.text = t := by
  match s with
  | memory s => exact h.1
  | decoded s => exact h.2
  | closed n => exact h.elim

theorem Shows.visible_text {s : CharStream} {v : Text} (h : s.Shows v) : visible s.text = v := by
  obtain ⟨t, hdelivers, rfl⟩ := h
  rw [hdelivers.text]

theorem Shows.length_le {s : CharStream} {v : Text} (h : s.Shows v) : v.length ≤ s.size := by
  obtain ⟨t, hdelivers, rfl⟩ := h
  rw [hdelivers.size]
  exact List.length_filter_le _ t

theorem Shows.readVisible {s : CharStream} {v : Text} (h : s.Shows v) :
    ∃ s', s.readVisible = (.ok v.head?, s') ∧ s'.Shows v.tail := by
  obtain ⟨t, h, rfl⟩ := h
  -- by the delivered text: its visible part does not tell how many reads are needed
  induction t generalizing s with
  | nil =>
    obtain ⟨s', hs, hrest⟩ := h.read
    refine ⟨s', ?_, [], hrest, rfl⟩
    rw [readVisible_eq, hs]
    rfl
  | cons c t ih =>
    obtain ⟨s', hs, hrest⟩ := h.read
    by_cases hc : c = '\r'
    · subst hc
      obtain ⟨s'', hs', hrest'⟩ := ih hrest
      rw [visible_cons_return]
      refine ⟨s'', ?_, hrest'⟩
      rw [readVisible_eq, hs]
      exact hs'
    · rw [visible_cons hc]
      refine ⟨s', ?_, t, hrest, rfl⟩
      rw [readVisible_eq, hs]
      exact if_neg hc

end CharStream
end LineLexer.Input
