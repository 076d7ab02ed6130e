import LineLexer.Reader.Characters
import LineLexer.Trivia

/-!
# Readers that nothing tells apart

Operations are made of a few small steps: moves, a remembered remainder, a last
match and a queue. When each of these comes to the same in two readers that are
related, and leaves them related, every operation does: the result is the same,
the failure is the same, and what is left is related again.
-/

namespace LineLexer

namespace Op

variable {α β : Type} {R : Reader → Reader → Prop}

inductive SameEnd (R : Reader → Reader → Prop) :
    EStateM.Result Fault Reader α → EStateM.Result Fault Reader α → Prop
  | ok {r s : Reader} (a : α) (h : R r s) : SameEnd R (.ok a r) (.ok a s)
  | error {r s : Reader} (fault : Fault) (h : R r s) : SameEnd R (.error fault r) (.error fault s)

/-- Put to related readers, an operation ends in the same way and leaves them related. -/
def Respects (R : Reader → Reader → Prop) (x : Op α) : Prop := ∀ r s, R r s → SameEnd R (x r) (x s)

theorem respects_pure (a : α) : Respects R (pure a : Op α) := fun _ _ h => .ok a h

theorem respects_throw (fault : Fault) : Respects R (throw fault : Op α) := fun _ _ h => .error fault h

theorem respects_throw_bind (fault : Fault) (f : α → Op β) :
    Respects R (throw fault >>= f : Op β) := fun _ _ h => .error fault h

theorem respects_modify {f : Reader → Reader} (hf : ∀ r s, R r s → R (f r) (f s)) :
    Respects R (modify f : Op Unit) := by
  intro r s h
  show SameEnd R (.ok () (f r)) (.ok () (f s))
  exact .ok () (hf r s h)

theorem respects_ofExcept (x : Except Fault α) : Respects R (ofExcept x) := by
  cases x with
  | ok a => exact respects_pure a
  | error fault => exact respects_throw fault

theorem SameEnd.mono {R' : Reader → Reader → Prop} {x y : EStateM.Result Fault Reader α}
    (hR : ∀ r s, R r s → R' r s) (h : SameEnd R x y) : SameEnd R' x y := by
  cases h with
  | ok a h => exact .ok a (hR _ _ h)
  | error fault h => exact .error fault (hR _ _ h)

theorem SameEnd.bind {x y : Op α} {f g : α → Op β} {r s : Reader} (h : SameEnd R (x r) (y s))
    (hfg : ∀ a r s, R r s → SameEnd R (f a r) (g a s)) : SameEnd R ((x >>= f) r) ((y >>= g) s) := by
  generalize hr : x r = z at h
  generalize hs : y s = w at h
  cases h with
  | ok a h =>
    rw [bind_of_ok hr, bind_of_ok hs]
    exact hfg a _ _ h
  | error fault h =>
    rw [bind_of_error hr, bind_of_error hs]
    exact .error fault h

theorem SameEnd.map {x y : Op α} {r s : Reader} (h : SameEnd R (x r) (y s)) (f : α → β) :
    SameEnd R ((f <$> x) r) ((f <$> y) s) := by
  show SameEnd R (EStateM.map f x r) (EStateM.map f y s)
  unfold EStateM.map
  generalize x r = z at h
  generalize y s = w at h
  cases h with
  | ok a h => exact .ok (f a) h
  | error fault h => exact .error fault h

theorem Respects.bind {x : Op α} {f : α → Op β} (hx : Respects R x)
    (hf : ∀ a, Respects R (f a)) : Respects R (x >>= f) :=
  fun r s h => (hx r s h).bind fun a => hf a

theorem Respects.map {x : Op α} (hx : Respects R x) (f : α → β) : Respects R (f <$> x) :=
  fun r s h => (hx r s h).map f

theorem respects_loop {turn : β → Op (β ⊕ α)}
    {shrinks : ∀ b r b' r', turn b r = .ok (.inl b') r' → r'.unread < r.unread}
    (hturn : ∀ b, Respects R (turn b)) (b : β) : Respects R (loop turn shrinks b) := by
  intro r s h
  induction hn : r.unread using Nat.strongRecOn generalizing b r s with
  | _ n ih =>
    subst hn
    have hsame := hturn b r s h
    generalize hr : turn b r = y at hsame
    generalize hs : turn b s = z at hsame
    cases hsame with
    | error fault h =>
      rw [loop_of_error hr, loop_of_error hs]
      exact .error fault h
    | ok x h =>
      cases x with
      | inr a =>
        rw [loop_of_inr hr, loop_of_inr hs]
        exact .ok a h
      | inl b' =>
        rw [loop_of_inl hr, loop_of_inl hs]
        exact ih _ (shrinks _ _ _ _ hr) b' _ _ h rfl

end Op

section Groups

variable {group : Int} {r : Reader}

theorem Reader.queueGroup_of_none (h : r.lastMatch = none) :
    queueGroup group true r = .error .noMatch r := by
  simp [queueGroup, h]

theorem Reader.queueGroup_of_some {m : Match} (h : r.lastMatch = some m) :
    queueGroup group true r = match m.groupText? group with
      | none => .error .noSuchGroup r
      | some text? => .ok () { r with queue := r.queue ++ [⟨r.location, text?⟩] } := by
  cases hgroup : m.groupText? group <;> simp [queueGroup, h, hgroup]

end Groups

/-- Readers that differ at most in what they remember, in the file and in what is noted, and that
the small steps keep related. -/
structure Coupling (R : Reader → Reader → Prop) : Prop where
  eq_with : ∀ r s, R r s → ∃ cachedRemainder stream notes,
    s = { r with cachedRemainder, stream, notes }
  next : Op.Respects R Reader.next
  accept : ∀ n, Op.Respects R (Reader.accept n)
  cacheRemainder : Op.Respects R Reader.cacheRemainder
  remainder : Op.Respects R Reader.remainder
  matching : ∀ r s lastMatch, R r s → R { r with lastMatch } { s with lastMatch }
  queueing : ∀ r s queue, R r s → R { r with queue } { s with queue }

namespace Coupling

open Op (Respects SameEnd)

variable {α : Type} {R : Reader → Reader → Prop} (hR : Coupling R)

include hR

theorem apply_eq {f : Reader → α}
    (hf : ∀ r cachedRemainder stream notes, f { r with cachedRemainder, stream, notes } = f r)
    {r s : Reader} (h : R r s) : f r = f s := by
  obtain ⟨cachedRemainder, stream, notes, rfl⟩ := hR.eq_with r s h
  exact (hf r cachedRemainder stream notes).symm

theorem get_bind {f : Reader → Op α}
    (hf : ∀ r cachedRemainder stream notes, f { r with cachedRemainder, stream, notes } = f r)
    (h : ∀ r, Respects R (f r)) : Respects R (get >>= f) := by
  intro r s hrs
  show SameEnd R (f r r) (f s s)
  rw [hR.apply_eq hf hrs]
  exact h s r s hrs

theorem observe {f : Reader → Except Fault α}
    (hf : ∀ r cachedRemainder stream notes, f { r with cachedRemainder, stream, notes } = f r) :
    Respects R (Op.observe f) := by
  intro r s h
  unfold Op.observe
  rw [hR.apply_eq hf h]
  cases f s with
  | ok a => exact .ok a h
  | error fault => exact .error fault h

theorem acceptText (t : Text) : Respects R (Reader.acceptText t) := by
  intro r s h
  have haccept := hR.accept t.length r s h
  unfold Reader.acceptText
  rw [hR.apply_eq (f := Reader.looksAt t) (fun _ _ _ _ => rfl) h]
  cases s.looksAt t with
  | error fault => exact .error fault h
  | ok goesOn =>
    cases goesOn with
    | false => exact .ok false h
    | true =>
      show SameEnd R (match Reader.accept t.length r with | _ => _) _
      generalize Reader.accept t.length r = x at haccept
      generalize Reader.accept t.length s = y at haccept
      cases haccept with
      | ok a h => exact .ok true h
      | error fault h => exact .error fault h

theorem take (limit : Option Nat) : Respects R (Reader.take limit) := by
  refine Op.respects_loop (fun t => ?_) _
  refine hR.get_bind (fun _ _ _ _ => rfl) fun r => ?_
  split
  · exact Op.respects_pure _
  · refine hR.next.bind fun c? => ?_
    cases c? <;> exact Op.respects_pure _

theorem matchPattern (p : Pattern.Source) (text : Option Text) :
    Respects R (Reader.matchPattern p text) := by
  have hsubject : Respects R (Reader.subject text) := by
    cases text with
    | none => exact hR.remainder
    | some t => exact Op.respects_pure t
  refine hsubject.bind fun searched => (Op.respects_ofExcept _).bind fun pattern => ?_
  exact (Op.respects_modify fun r s h => hR.matching r s _ h).bind fun _ => Op.respects_pure _

theorem matchFirst (text : Option Text) (patterns : List Pattern.Source) :
    Respects R (Reader.matchFirst text patterns) := by
  induction patterns with
  | nil => exact Op.respects_pure false
  | cons p ps ih =>
    refine (hR.matchPattern p text).bind fun found => ?_
    cases found with
    | true => exact Op.respects_pure true
    | false => exact ih

theorem withMatch {f : Match → Op α} {other : Op α} (hf : ∀ m, Respects R (f m))
    (hother : Respects R other) :
    Respects R fun r => match r.lastMatch with
      | some m => f m r
      | none => other r := by
  intro r s h
  have hsame : r.lastMatch = s.lastMatch := hR.apply_eq (fun _ _ _ _ => rfl) h
  show SameEnd R (match r.lastMatch with | _ => _) (match s.lastMatch with | _ => _)
  rw [hsame]
  cases s.lastMatch with
  | some m => exact hf m r s h
  | none => exact hother r s h

theorem acceptMatch : Respects R Reader.acceptMatch :=
  hR.withMatch (fun m => hR.accept m.whole.stop) (Op.respects_pure ())

theorem failLexically (kind : LexicalKind) : Respects R (Reader.failLexically kind : Op α) := by
  refine hR.get_bind (fun _ _ _ _ => rfl) fun r => hR.acceptMatch.bind fun _ => ?_
  refine hR.get_bind (fun _ _ _ _ => rfl) fun r => ?_
  exact (Op.respects_modify fun r s h => hR.queueing r s [] h).bind fun _ => Op.respects_throw _

theorem queueFragments (m : Match) (save : Bool) : Respects R (Reader.queueFragments m save) := by
  intro r s h
  cases save with
  | false => exact .ok () h
  | true =>
    have hqueue : r.queue = s.queue := hR.apply_eq (fun _ _ _ _ => rfl) h
    have hlocation : r.location = s.location := hR.apply_eq (fun _ _ _ _ => rfl) h
    have hkept := hR.queueing r s (s.queue ++ (Reader.fragmentsOf m s.location).map Fragment.capture) h
    show SameEnd R (.ok () { r with queue := _ }) (.ok () { s with queue := _ })
    rw [hqueue, hlocation]
    exact .ok () hkept

theorem checkCount (m : Match) (counts : Option (List Int)) :
    Respects R (Reader.checkCount m counts) := by
  unfold Reader.checkCount
  split
  · exact hR.failLexically _
  · exact Op.respects_pure ()

theorem takeMatch (counts : Option (List Int)) (save : Bool) :
    Respects R (Reader.takeMatch counts save) := by
  refine hR.withMatch (fun m => ?_) (Op.respects_pure ())
  exact (hR.queueFragments m save).bind fun _ => (hR.checkCount m counts).bind fun _ => hR.acceptMatch

theorem acceptFirst (patterns : List Pattern.Source) (counts : Option (List Int))
    (text : Option Text) (save : Bool) :
    Respects R (Reader.acceptFirst patterns counts text save) := by
  refine (hR.matchFirst text patterns).bind fun found => ?_
  cases found with
  | true => exact (hR.takeMatch counts save).bind fun _ => Op.respects_pure true
  | false => exact Op.respects_pure false

theorem queueGroup (group : Int) (save : Bool) : Respects R (Reader.queueGroup group save) := by
  intro r s h
  have hmatch : r.lastMatch = s.lastMatch := hR.apply_eq (fun _ _ _ _ => rfl) h
  have hqueue : r.queue = s.queue := hR.apply_eq (fun _ _ _ _ => rfl) h
  have hlocation : r.location = s.location := hR.apply_eq (fun _ _ _ _ => rfl) h
  cases save with
  | false => exact .ok () h
  | true =>
    cases hs : s.lastMatch with
    | none =>
      rw [Reader.queueGroup_of_none hs, Reader.queueGroup_of_none (hmatch.trans hs)]
      exact .error _ h
    | some m =>
      rw [Reader.queueGroup_of_some hs, Reader.queueGroup_of_some (hmatch.trans hs), hqueue, hlocation]
      cases m.groupText? group with
      | none => exact .error _ h
      | some text? => exact .ok () (hR.queueing r s _ h)

theorem fetchGroup (group : Int) : Respects R (Reader.fetchGroup group) := by
  refine hR.get_bind (fun _ _ _ _ => rfl) fun r => ?_
  simp only
  split
  · exact Op.respects_throw_bind _ _
  · refine (hR.observe fun _ _ _ _ => rfl).bind fun text => ?_
    exact (hR.queueGroup group true).bind fun _ => Op.respects_pure text

theorem popCapture : Respects R Reader.popCapture := by
  intro r s h
  have hqueue : r.queue = s.queue := hR.apply_eq (fun _ _ _ _ => rfl) h
  unfold Reader.popCapture
  rw [hqueue]
  cases s.queue with
  | nil => exact .error _ h
  | cons c rest => exact .ok c (hR.queueing r s rest h)

theorem drainQueue : Respects R Reader.drainQueue := by
  intro r s h
  have hqueue : r.queue = s.queue := hR.apply_eq (fun _ _ _ _ => rfl) h
  unfold Reader.drainQueue
  rw [hqueue]
  exact .ok _ (hR.queueing r s [] h)

theorem clearQueue : Respects R Reader.clearQueue :=
  Op.respects_modify fun r s h => hR.queueing r s [] h

theorem acceptDelimiter (d : Json) : Respects R (Reader.acceptDelimiter d) := by
  unfold Reader.acceptDelimiter
  split
  · exact hR.acceptText _
  · exact hR.observe fun _ _ _ _ => rfl

theorem readBlock (opener closer : Json) : Respects R (Reader.readBlock opener closer) := by
  refine Op.respects_loop (fun done => ?_) []
  refine hR.get_bind (fun _ _ _ _ => rfl) fun r => ?_
  split
  · exact Op.respects_pure _
  · refine (hR.acceptDelimiter closer).bind fun closed => ?_
    split
    · exact Op.respects_pure _
    · refine (hR.observe fun _ _ _ _ => rfl).bind fun nested => ?_
      split
      · exact hR.failLexically _
      · refine hR.next.bind fun c? => ?_
        cases c? <;> exact Op.respects_pure _

theorem forgetMatch : Respects R Reader.forgetMatch :=
  Op.respects_modify fun r s h => hR.matching r s none h

theorem blockComment (keep : Bool) : Respects R (Reader.blockComment keep) := by
  refine hR.get_bind (fun _ _ _ _ => rfl) fun r => hR.forgetMatch.bind fun _ => ?_
  refine (hR.readBlock _ _).bind fun done => hR.get_bind (fun _ _ _ _ => rfl) fun s => ?_
  split
  · exact hR.failLexically _
  · exact Op.respects_ofExcept _

theorem lineComment (keep : Bool) : Respects R (Reader.lineComment keep) := by
  refine hR.get_bind (fun _ _ _ _ => rfl) fun r => hR.forgetMatch.bind fun _ => ?_
  exact hR.cacheRemainder.bind fun text => (hR.accept _).bind fun _ => Op.respects_ofExcept _

theorem skip (t : Trivia) : Respects R t.skip := by
  refine (Op.respects_loop (fun comments => ?_) []).bind fun comments => Op.respects_pure _
  refine hR.get_bind (fun _ _ _ _ => rfl) fun start => ?_
  split
  · exact Op.respects_pure _
  · refine (hR.observe fun _ _ _ _ => rfl).bind fun c? => ?_
    split
    · exact hR.next.bind fun _ => Op.respects_pure _
    · refine (hR.acceptDelimiter _).bind fun opened => ?_
      split
      · exact (hR.blockComment _).bind fun _ => Op.respects_pure _
      · refine (hR.acceptDelimiter _).bind fun marked => ?_
        split
        · exact (hR.lineComment _).bind fun _ => Op.respects_pure _
        · exact Op.respects_pure _

end Coupling
end LineLexer
