import LineLexer.Scan

/-!
# How many turns a loop takes

A turn that goes on takes characters off the unread text. A loop therefore ends,
with its result or with a failure, after no more turns than there are unread
characters, and one.
-/

namespace LineLexer

namespace Op

variable {α β γ : Type} {turn : β → Op (β ⊕ α)}

inductive Turns (turn : β → Op (β ⊕ α)) :
    Nat → β → Reader → EStateM.Result Fault Reader α → Prop
  | ends {b : β} {r s : Reader} {a : α} (h : turn b r = .ok (.inr a) s) : Turns turn 1 b r (.ok a s)
  | fails {b : β} {r s : Reader} {fault : Fault} (h : turn b r = .error fault s) :
      Turns turn 1 b r (.error fault s)
  | goesOn {n : Nat} {b b' : β} {r s : Reader} {x : EStateM.Result Fault Reader α}
      (h : turn b r = .ok (.inl b') s) (hrest : Turns turn n b' s x) : Turns turn (n + 1) b r x

def andThen (x : EStateM.Result Fault Reader α) (f : α → Op γ) : EStateM.Result Fault Reader γ :=
  match x with
  | .ok a s => f a s
  | .error fault s => .error fault s

theorem bind_eq_andThen (x : Op α) (f : α → Op γ) (r : Reader) :
    (x >>= f) r = andThen (x r) f := by
  cases hx : x r with
  | ok a s => exact bind_of_ok hx
  | error fault s => exact bind_of_error hx

theorem exists_turns (shrinks : ∀ b r b' s, turn b r = .ok (.inl b') s → s.unread < r.unread)
    (b : β) (r : Reader) :
    ∃ n ≤ r.unread + 1, Turns turn n b r (loop turn shrinks b r) := by
  -- by what is unread, which every turn that goes on shortens
  induction hn : r.unread using Nat.strongRecOn generalizing b r with
  | _ n ih =>
    subst hn
    cases hturn : turn b r with
    | error fault s =>
      rw [loop_of_error hturn]
      exact ⟨1, by omega, .fails hturn⟩
    | ok x s =>
      cases x with
      | inr a =>
        rw [loop_of_inr hturn]
        exact ⟨1, by omega, .ends hturn⟩
      | inl b' =>
        have hlt := shrinks _ _ _ _ hturn
        obtain ⟨n, hle, hturns⟩ := ih _ hlt b' s rfl
        rw [loop_of_inl hturn]
        exact ⟨n + 1, by omega, .goesOn hturn hturns⟩

/-- An operation is a loop, begun where a reader stands, and what is done behind it. Each turn
that goes on leaves fewer characters unread, and the turns are at most one more than there are
unread characters. -/
structure EndsInTime (turn : β → Op (β ⊕ α)) (b : β) (behind : α → Op γ) (whole : Op γ)
    (r : Reader) : Prop where
  shrinks : ∀ b r b' s, turn b r = .ok (.inl b') s → s.unread < r.unread
  ends : ∃ s n x, Reader.SamePlace r s ∧ n ≤ r.unread + 1 ∧ Turns turn n b s x ∧
    whole r = andThen x behind

theorem endsInTime_of_loop {shrinks : ∀ b r b' s, turn b r = .ok (.inl b') s → s.unread < r.unread}
    {b : β} {behind : α → Op γ} {whole : Op γ} {r s : Reader} (hplace : Reader.SamePlace r s)
    (hwhole : whole r = andThen (loop turn shrinks b s) behind) :
    EndsInTime turn b behind whole r := by
  obtain ⟨n, hle, hturns⟩ := exists_turns shrinks b s
  rw [hplace.unread] at hle
  exact ⟨shrinks, s, n, _, hplace, hle, hturns, hwhole⟩

end Op

namespace Reader

def finishBlock (keep : Bool) (opener : Json) (done : Text) : Op (Option Text) := do
  if (← get).ended then failLexically .unexpectedEnd
  else Op.ofExcept (keptComment keep opener (.joinItem 0) done.reverse)

theorem blockComment_eq (keep : Bool) (r : Reader) : blockComment keep r =
    (readBlock r.config.opener r.config.closer >>= finishBlock keep r.config.opener : Op (Option Text))
      { r with lastMatch := none } := rfl

theorem blockComment_endsInTime (keep : Bool) (r : Reader) :
    Op.EndsInTime (blockTurn r.config.opener r.config.closer) []
      (finishBlock keep r.config.opener) (blockComment keep) r := by
  have hplace : SamePlace r { r with lastMatch := none } := ⟨rfl, rfl, rfl, rfl⟩
  apply Op.endsInTime_of_loop hplace
  rw [blockComment_eq, Op.bind_eq_andThen]
  rfl

end Reader

theorem Trivia.skip_endsInTime (t : Trivia) (r : Reader) :
    Op.EndsInTime t.turn [] (fun comments => pure comments.reverse) t.skip r := by
  apply Op.endsInTime_of_loop (.refl r)
  exact Op.bind_eq_andThen _ _ r

theorem Scan.fragments_endsInTime (s : Scan) (r : Reader) :
    Op.EndsInTime s.turn [] (fun found => pure found.reverse) s.fragments r := by
  apply Op.endsInTime_of_loop (.refl r)
  exact Op.bind_eq_andThen _ _ r

/-- Scanning, skipping and reading a block comment end in time wherever a reader stands, whatever
the settings and the patterns are. -/
theorem endsInTime_everywhere (r : Reader) :
    (∀ s : Scan, Op.EndsInTime s.turn [] (fun found => pure found.reverse) s.fragments r) ∧
    (∀ t : Trivia, Op.EndsInTime t.turn [] (fun comments => pure comments.reverse) t.skip r) ∧
    ∀ keep, Op.EndsInTime (Reader.blockTurn r.config.opener r.config.closer) []
      (Reader.finishBlock keep r.config.opener) (Reader.blockComment keep) r :=
  ⟨fun s => s.fragments_endsInTime r, fun t => t.skip_endsInTime r,
    fun keep => Reader.blockComment_endsInTime keep r⟩

end LineLexer
