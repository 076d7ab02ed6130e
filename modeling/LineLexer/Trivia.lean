import LineLexer.Reader.Comments

/-! What stands between the fragments of a source: blanks and comments. -/

namespace LineLexer

structure Trivia where
  config : Config
  keepComments : Bool := false

namespace Trivia

def keep (comments : List Fragment) (start : Location) (text : Option Text) : List Fragment :=
  match text with
  | some t => ⟨start, t⟩ :: comments
  | none => comments

def turn (t : Trivia) (comments : List Fragment) : Op (List Fragment ⊕ List Fragment) := do
  let start ← get
  if start.ended then return .inr comments
  else if (← Op.observe (Reader.lookAhead 0)).any Text.isBlank then
    let _ ← Reader.next
    return .inl comments
  else if ← Reader.acceptDelimiter t.config.opener then
    return .inl (keep comments start.location (← Reader.blockComment t.keepComments))
  else if ← Reader.acceptDelimiter t.config.lineComment then
    return .inl (keep comments start.location (← Reader.lineComment t.keepComments))
  else return .inr comments

theorem turn_eq_ok {t : Trivia} {comments : List Fragment} {x : List Fragment ⊕ List Fragment}
    {r s : Reader} (h : t.turn comments r = .ok x s) :
    s.unread ≤ r.unread ∧ ∀ more, x = .inl more → s.unread < r.unread := by
  unfold turn at h
  obtain ⟨_, _, hget, h⟩ := Op.bind_eq_ok.1 h
  cases hget
  split at h
  · obtain ⟨rfl, rfl⟩ := Op.pure_eq_ok.1 h
    simp
  · rename_i hended
    obtain ⟨c?, u, hlook, h⟩ := Op.bind_eq_ok.1 h
    obtain ⟨-, rfl⟩ := Reader.observe_eq_ok hlook
    split at h
    · obtain ⟨_, u, hnext, h⟩ := Op.bind_eq_ok.1 h
      obtain ⟨rfl, rfl⟩ := Op.pure_eq_ok.1 h
      have hlt := Reader.unread_next (by simpa using hended) hnext
      exact ⟨Nat.le_of_lt hlt, fun _ _ => hlt⟩
    · obtain ⟨opened, u, hopened, h⟩ := Op.bind_eq_ok.1 h
      split at h
      · rename_i htrue
        subst htrue
        obtain ⟨text, v, hblock, h⟩ := Op.bind_eq_ok.1 h
        obtain ⟨rfl, rfl⟩ := Op.pure_eq_ok.1 h
        have hlt := Reader.unread_acceptDelimiter t.config.opener_isTruthy hopened
        have hle := Reader.unread_blockComment hblock
        exact ⟨by omega, fun _ _ => by omega⟩
      · rename_i hfalse
        rw [Bool.not_eq_true] at hfalse
        subst hfalse
        obtain rfl := Reader.acceptDelimiter_eq_false hopened
        obtain ⟨marked, u, hmarked, h⟩ := Op.bind_eq_ok.1 h
        split at h
        · rename_i htrue
          subst htrue
          obtain ⟨text, v, hline, h⟩ := Op.bind_eq_ok.1 h
          obtain ⟨rfl, rfl⟩ := Op.pure_eq_ok.1 h
          have hlt := Reader.unread_acceptDelimiter t.config.lineComment_isTruthy hmarked
          have hle := Reader.unread_lineComment hline
          exact ⟨by omega, fun _ _ => by omega⟩
        · obtain ⟨rfl, rfl⟩ := Op.pure_eq_ok.1 h
          exact ⟨Reader.unread_acceptDelimiter_le hmarked, by simp⟩

theorem rest_of_turn {t : Trivia} {comments found : List Fragment} {r s : Reader}
    (h : t.turn comments r = .ok (.inr found) s) : s.ended = true ∨ s.rest ≠ [] := by
  unfold turn at h
  obtain ⟨_, _, hget, h⟩ := Op.bind_eq_ok.1 h
  cases hget
  split at h
  · rename_i hended
    obtain ⟨-, rfl⟩ := Op.pure_eq_ok.1 h
    exact .inl hended
  · rename_i hended
    obtain ⟨c?, u, hobs, h⟩ := Op.bind_eq_ok.1 h
    obtain ⟨hlook, rfl⟩ := Reader.observe_eq_ok hobs
    have hrest : r.rest ≠ [] := by
      rintro hnil
      simp [Reader.lookAhead, hended, hnil] at hlook
    split at h
    · obtain ⟨_, u, -, h⟩ := Op.bind_eq_ok.1 h
      cases h
    · obtain ⟨opened, u, hopened, h⟩ := Op.bind_eq_ok.1 h
      split at h
      · obtain ⟨_, u, -, h⟩ := Op.bind_eq_ok.1 h
        cases h
      · rename_i hfalse
        rw [Bool.not_eq_true] at hfalse
        subst hfalse
        obtain rfl := Reader.acceptDelimiter_eq_false hopened
        obtain ⟨marked, u, hmarked, h⟩ := Op.bind_eq_ok.1 h
        split at h
        · obtain ⟨_, u, -, h⟩ := Op.bind_eq_ok.1 h
          cases h
        · rename_i hfalse
          rw [Bool.not_eq_true] at hfalse
          subst hfalse
          obtain rfl := Reader.acceptDelimiter_eq_false hmarked
          obtain ⟨-, rfl⟩ := Op.pure_eq_ok.1 h
          exact .inr hrest

def skip (t : Trivia) : Op (List Fragment) := do
  let comments ← Op.loop t.turn (fun _ _ _ _ h => (turn_eq_ok h).2 _ rfl) []
  return comments.reverse

theorem unread_skip {t : Trivia} {comments : List Fragment} {r s : Reader}
    (h : t.skip r = .ok comments s) : s.unread ≤ r.unread := by
  obtain ⟨_, u, hloop, h⟩ := Op.bind_eq_ok.1 h
  obtain ⟨-, rfl⟩ := Op.pure_eq_ok.1 h
  exact Op.unread_loop (fun _ _ _ _ h => (turn_eq_ok h).1) hloop

theorem rest_of_skip {t : Trivia} {comments : List Fragment} {r s : Reader}
    (h : t.skip r = .ok comments s) : s.ended = true ∨ s.rest ≠ [] := by
  obtain ⟨_, u, hloop, h⟩ := Op.bind_eq_ok.1 h
  obtain ⟨-, rfl⟩ := Op.pure_eq_ok.1 h
  obtain ⟨_, _, hturn⟩ := Op.loop_eq_ok hloop
  exact rest_of_turn hturn

end Trivia
end LineLexer
