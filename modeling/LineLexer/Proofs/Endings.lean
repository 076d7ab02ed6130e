import LineLexer.Proofs.Moves
import LineLexer.Scan

/-!
# How operations can end

An operation ends in a state, or it fails. Which states it can end in and what it can fail with is
told by the moves that it is made of, by the questions it asks of the line, and by the lexical
errors that it raises itself.
-/

namespace LineLexer

def FailsOnly {ε α : Type} (P : ε → Prop) (x : Except ε α) : Prop := ∀ e, x = .error e → P e

section Failing

variable {ε α β : Type} {P : ε → Prop}

theorem failsOnly_ok (a : α) : FailsOnly P (.ok a) := by
  rintro e ⟨⟩

theorem failsOnly_error {e : ε} (h : P e) : FailsOnly P (.error e : Except ε α) := by
  rintro _ ⟨⟩
  exact h

theorem FailsOnly.bind {x : Except ε α} {f : α → Except ε β} (hx : FailsOnly P x)
    (hf : ∀ a, FailsOnly P (f a)) : FailsOnly P (x >>= f) := by
  cases x with
  | ok a => exact hf a
  | error e => exact failsOnly_error (hx e rfl)

theorem FailsOnly.map {x : Except ε α} (hx : FailsOnly P x) (f : α → β) :
    FailsOnly P (f <$> x) := by
  cases x with
  | ok a => exact failsOnly_ok (f a)
  | error e => exact failsOnly_error (hx e rfl)

end Failing

def Fault.OfUse : Fault → Prop
  | breach _ | misuse _ | pattern _ | noSuchGroup | noMatch | emptyQueue | shortSpan => True
  | _ => False

abbrev FailsAside {α : Type} (x : Except Fault α) : Prop := FailsOnly Fault.OfUse x

namespace Reader

section Asking

variable {r : Reader}

theorem failsAside_lookAhead (n : Int) : FailsAside (r.lookAhead n) := by
  unfold lookAhead
  split
  · exact failsOnly_error trivial
  · split
    · exact failsOnly_ok none
    · split
      · exact failsOnly_ok _
      · exact failsOnly_error trivial

theorem failsAside_substring (n : Int) : FailsAside (r.substring n) := by
  unfold substring
  split
  · exact failsOnly_error trivial
  · split
    · exact failsOnly_ok []
    · exact failsOnly_ok _

theorem failsAside_looksAt (t : Text) : FailsAside (r.looksAt t) := by
  unfold looksAt
  split
  · exact (failsAside_lookAhead 0).bind fun _ => failsOnly_ok _
  · exact (failsAside_substring _).bind fun _ => failsOnly_ok _

theorem failsAside_groupText (group : Int) : FailsAside (r.groupText group) := by
  unfold groupText
  split
  · exact failsOnly_ok none
  · split
    · exact failsOnly_ok _
    · exact failsOnly_error trivial

theorem failsAside_groupSpan (group : Int) : FailsAside (r.groupSpan group) := by
  unfold groupSpan
  split
  · exact failsOnly_error trivial
  · split
    · exact failsOnly_ok _
    · exact failsOnly_error trivial

theorem failsAside_ask (q : Question) : FailsAside (q.ask r) := by
  cases q with
  | lookAhead n => exact (failsAside_lookAhead n).map _
  | substring n => exact (failsAside_substring n).map _
  | isEndOfLine => exact ((failsAside_lookAhead 0).bind fun _ => failsOnly_ok _).map _
  | groupText group => exact (failsAside_groupText group).map _
  | groupSpan group => exact (failsAside_groupSpan group).map _
  | _ => exact failsOnly_ok _

theorem failsAside_resolve (p : Pattern.Source) : FailsAside p.resolve := by
  cases p with
  | ready pattern => exact failsOnly_ok pattern
  | written text named =>
    show FailsAside ((Pattern.parse {} text named).mapError .pattern)
    cases Pattern.parse {} text named with
    | ok pattern => exact failsOnly_ok pattern
    | error fault => exact failsOnly_error trivial

theorem failsAside_keptComment (keep : Bool) (delimiter : Json) (misuse : String → Misuse)
    (text : Text) : FailsAside (keptComment keep delimiter misuse text) := by
  unfold keptComment
  split
  · split
    · exact failsOnly_ok _
    · exact failsOnly_error trivial
  · exact failsOnly_ok none

theorem failsAside_looksAtDelimiter (d : Json) : FailsAside (r.looksAtDelimiter d) := by
  unfold looksAtDelimiter
  split
  · exact failsAside_looksAt _
  · split
    · exact failsOnly_error trivial
    · split
      · exact (failsAside_lookAhead 0).map _
      · exact failsOnly_ok false

theorem failsAside_lineLooksAt (d : Json) : FailsAside (r.lineLooksAt d) := by
  unfold lineLooksAt
  split
  · exact (failsAside_substring _).bind fun _ => failsOnly_ok _
  · split
    · exact failsOnly_error trivial
    · exact failsOnly_ok false

end Asking

end Reader

namespace Op

variable {α β : Type} {I : Reader → Prop} {E : Fault → Reader → Prop} {r : Reader}

inductive EndsIn (I : Reader → Prop) (E : Fault → Reader → Prop) :
    EStateM.Result Fault Reader α → Prop
  | ok {s : Reader} (a : α) (h : I s) : EndsIn I E (.ok a s)
  | error {s : Reader} (fault : Fault) (h : E fault s) : EndsIn I E (.error fault s)

/-- From the states of one kind an operation leads to such states again, or fails in a way that is
allowed. -/
def Ends (I : Reader → Prop) (E : Fault → Reader → Prop) (x : Op α) : Prop :=
  ∀ r, I r → EndsIn I E (x r)

def Asks (I : Reader → Prop) (E : Fault → Reader → Prop) (f : Reader → Except Fault α) : Prop :=
  ∀ r, I r → FailsOnly (E · r) (f r)

theorem EndsIn.bind {x : Op α} {f : α → Op β} (hx : EndsIn I E (x r)) (hf : ∀ a, Ends I E (f a)) :
    EndsIn I E ((x >>= f) r) := by
  generalize hrun : x r = y at hx
  cases hx with
  | ok a h =>
    rw [bind_of_ok hrun]
    exact hf a _ h
  | error fault h =>
    rw [bind_of_error hrun]
    exact .error fault h

theorem EndsIn.map {x : Op α} (hx : EndsIn I E (x r)) (f : α → β) : EndsIn I E ((f <$> x) r) := by
  show EndsIn I E (EStateM.map f x r)
  unfold EStateM.map
  generalize x r = y at hx
  cases hx with
  | ok a h => exact .ok (f a) h
  | error fault h => exact .error fault h

theorem ends_pure (a : α) : Ends I E (pure a : Op α) := fun _ h => .ok a h

theorem Ends.bind {x : Op α} {f : α → Op β} (hx : Ends I E x) (hf : ∀ a, Ends I E (f a)) :
    Ends I E (x >>= f) := fun r h => (hx r h).bind hf

theorem Ends.preserves {x : Op α} (hx : Ends I E x) (hE : ∀ fault s, E fault s → I s) :
    Preserves I x := by
  intro r h
  have hends := hx r h
  unfold after
  generalize x r = y at hends
  cases hends with
  | ok a h => exact h
  | error fault h => exact hE fault _ h

theorem ends_get_bind {f : Reader → Op α} (hf : ∀ r, I r → Ends I E (f r)) :
    Ends I E (get >>= f) := fun r h => hf r h r h

theorem ends_modify {f : Reader → Reader} (hf : ∀ r, I r → I (f r)) :
    Ends I E (modify f : Op Unit) := fun r h => .ok () (hf r h)

theorem Asks.ends_observe {f : Reader → Except Fault α} (hf : Asks I E f) :
    Ends I E (observe f) := by
  intro r h
  unfold observe
  cases hr : f r with
  | ok a => exact .ok a h
  | error fault => exact .error fault (hf r h fault hr)

theorem Asks.ends_ofExcept {x : Except Fault α} (hx : Asks I E fun _ => x) :
    Ends I E (ofExcept x) := by
  intro r h
  cases x with
  | ok a => exact .ok a h
  | error fault => exact .error fault (hx r h fault rfl)

theorem ends_loop {turn : β → Op (β ⊕ α)}
    {shrinks : ∀ b r b' r', turn b r = .ok (.inl b') r' → r'.unread < r.unread}
    (hturn : ∀ b, Ends I E (turn b)) (b : β) : Ends I E (loop turn shrinks b) := by
  intro r h
  induction hn : r.unread using Nat.strongRecOn generalizing b r with
  | _ n ih =>
    subst hn
    have hends := hturn b r h
    generalize hrun : turn b r = y at hends
    cases hends with
    | error fault h =>
      rw [loop_of_error hrun]
      exact .error fault h
    | ok x h =>
      cases x with
      | inr a =>
        rw [loop_of_inr hrun]
        exact .ok a h
      | inl b' =>
        rw [loop_of_inl hrun]
        exact ih _ (shrinks _ _ _ _ hrun) b' _ h rfl

end Op

namespace Reader

open Op (Ends EndsIn)

theorem acceptText_of_looksAt {t : Text} {r : Reader} (h : r.looksAt t = .ok true) :
    acceptText t r = (accept t.length >>= fun _ => pure true : Op Bool) r := by
  rw [acceptText, h]
  cases haccept : accept t.length r with
  | ok _ s => rw [Op.bind_of_ok haccept]; rfl
  | error fault s => rw [Op.bind_of_error haccept]

structure Moving (I : Reader → Prop) (E : Fault → Reader → Prop) : Prop where
  inLine : ∀ r n, r.ended = false → n < r.rest.length → I r → I (r.advance n)
  onward : ∀ r, r.ended = false → r.line ≠ [] → I r → EndsIn I E (nextLine r.behindLine)
  nowhere : ∀ r, r.ended = false → r.rest = [] → I r → E (.breach (.beyondLine 0 r.lineNumber)) r

namespace Moving

variable {I : Reader → Prop} {E : Fault → Reader → Prop} (hM : Moving I E)

include hM

theorem ends_next : Ends I E next := by
  intro r h
  cases hended : r.ended with
  | true =>
    rw [next_of_ended hended]
    exact .ok none h
  | false =>
    match hrest : r.rest with
    | [] =>
      rw [next_of_nil hended hrest]
      exact .error _ (hM.nowhere r hended hrest h)
    | c :: d :: rest =>
      rw [next_of_inner hended hrest]
      exact .ok (some c) (hM.inLine r 1 hended (by simp [hrest]) h)
    | [c] =>
      rw [next_of_last hended hrest]
      exact (hM.onward r hended (by simp [line, hrest]) h).bind fun _ => Op.ends_pure (some c)

theorem ends_steps (n : Nat) : Ends I E (steps n) := by
  induction n with
  | zero => exact Op.ends_pure ()
  | succ n ih =>
    intro r h
    rw [steps_succ]
    exact hM.ends_next.bind (fun _ => ih) r h

theorem ends_accept (n : Int) : Ends I E (accept n) := by
  intro r h
  by_cases hstop : r.ended = true ∨ n ≤ 0
  · rw [accept_of_stop hstop]
    exact .ok () h
  · obtain ⟨hended, hpos⟩ : r.ended = false ∧ 0 < n := by simpa using hstop
    by_cases hlt : n.toNat < r.rest.length
    · rw [accept_of_lt hended hpos hlt]
      exact .ok () (hM.inLine r _ hended hlt h)
    · by_cases hline : r.line = []
      · have hrest : r.rest = [] := (List.append_eq_nil_iff.1 hline).2
        rw [accept_of_noLine hended hpos hline]
        exact .error _ (hM.nowhere r hended hrest h)
      · rw [accept_of_beyond hended hpos (Nat.le_of_not_lt hlt) hline]
        exact (hM.onward r hended hline h).bind fun _ => hM.ends_steps _

end Moving

end Reader

/-- What the small steps lead to that operations are made of, as long as nothing is queued; a
lexical error tells the place at which it empties the queue. -/
structure Steps (I : Reader → Prop) (E : Fault → Reader → Prop) : Prop where
  moving : Reader.Moving I E
  remembering : ∀ r cachedRemainder, I r → I { r with cachedRemainder }
  matching : ∀ r lastMatch, I r → I { r with lastMatch }
  failing : ∀ r kind doing, I r → E (.lexical kind r.location doing) { r with queue := [] }

structure Endings (I : Reader → Prop) (E : Fault → Reader → Prop) : Prop extends Steps I E where
  queueing : ∀ r queue, I r → I { r with queue }

def Op.Blames (I : Reader → Prop) (E : Fault → Reader → Prop) : Prop :=
  ∀ fault r, fault.OfUse → I r → E fault r

structure Sought (I : Reader → Prop) (E : Fault → Reader → Prop) (d : Json) : Prop where
  begins : Op.Asks I E (Reader.looksAtDelimiter d)
  stands : Op.Asks I E (Reader.lineLooksAt d)
  joins : ∀ keep misuse text, Op.Asks I E fun _ => Reader.keptComment keep d misuse text

structure Delimiting (I : Reader → Prop) (E : Fault → Reader → Prop) (config : Config) : Prop where
  opener : Sought I E config.opener
  closer : Sought I E config.closer
  lineComment : Sought I E config.lineComment

section Blames

open Op (Asks)

variable {I : Reader → Prop} {E : Fault → Reader → Prop} (hblames : Op.Blames I E)

include hblames

theorem Op.Blames.asks {α : Type} {f : Reader → Except Fault α} (hf : ∀ r, FailsAside (f r)) :
    Asks I E f := fun r hr fault hfails => hblames fault r (hf r fault hfails) hr

theorem Op.Blames.sought (d : Json) : Sought I E d where
  begins := hblames.asks fun _ => Reader.failsAside_looksAtDelimiter d
  stands := hblames.asks fun _ => Reader.failsAside_lineLooksAt d
  joins keep misuse text := hblames.asks fun _ => Reader.failsAside_keptComment keep d misuse text

theorem Op.Blames.delimiting (config : Config) : Delimiting I E config :=
  ⟨hblames.sought _, hblames.sought _, hblames.sought _⟩

end Blames

def Operation.LeavesQueue : Operation → Prop
  | acceptFirst .. | queueGroup .. | fetchGroup _ | popCapture | drainQueue | clearQueue => False
  | _ => True

namespace Steps

open Op (Ends Asks)

variable {α : Type} {I : Reader → Prop} {E : Fault → Reader → Prop} (hE : Steps I E)

include hE

theorem next : Ends I E Reader.next := hE.moving.ends_next

theorem accept (n : Int) : Ends I E (Reader.accept n) := hE.moving.ends_accept n

theorem cacheRemainder : Ends I E Reader.cacheRemainder :=
  fun r h => .ok _ (hE.remembering r _ h)

theorem remainder : Ends I E Reader.remainder := by
  intro r h
  unfold Reader.remainder
  cases r.cachedRemainder with
  | some t => exact .ok t h
  | none => exact hE.cacheRemainder r h

theorem acceptText {t : Text} (ht : Asks I E (Reader.looksAt t)) : Ends I E (Reader.acceptText t) := by
  intro r h
  cases hlooks : r.looksAt t with
  | error fault =>
    rw [Reader.acceptText, hlooks]
    exact .error fault (ht r h fault hlooks)
  | ok found =>
    cases found with
    | false =>
      rw [Reader.acceptText, hlooks]
      exact .ok false h
    | true =>
      rw [Reader.acceptText_of_looksAt hlooks]
      exact (hE.accept t.length r h).bind fun _ => Op.ends_pure true

theorem take (limit : Option Nat) : Ends I E (Reader.take limit) := by
  refine Op.ends_loop (fun t => Op.ends_get_bind fun r _ => ?_) _
  split
  · exact Op.ends_pure _
  · refine hE.next.bind fun c? => ?_
    cases c? <;> exact Op.ends_pure _

theorem matchPattern {p : Pattern.Source} (hp : Asks I E fun _ => p.resolve) (text : Option Text) :
    Ends I E (Reader.matchPattern p text) := by
  have hsubject : Ends I E (Reader.subject text) := by
    cases text with
    | none => exact hE.remainder
    | some t => exact Op.ends_pure t
  refine hsubject.bind fun searched => hp.ends_ofExcept.bind fun pattern => ?_
  exact (Op.ends_modify fun r h => hE.matching r _ h).bind fun _ => Op.ends_pure _

theorem matchFirst {patterns : List Pattern.Source}
    (hp : ∀ p ∈ patterns, Asks I E fun _ => p.resolve) (text : Option Text) :
    Ends I E (Reader.matchFirst text patterns) := by
  induction patterns with
  | nil => exact Op.ends_pure false
  | cons p ps ih =>
    rw [List.forall_mem_cons] at hp
    refine (hE.matchPattern hp.1 text).bind fun found => ?_
    cases found with
    | true => exact Op.ends_pure true
    | false => exact ih hp.2

theorem acceptMatch : Ends I E Reader.acceptMatch := by
  intro r h
  unfold Reader.acceptMatch
  cases r.lastMatch with
  | some m => exact hE.accept m.whole.stop r h
  | none => exact .ok () h

theorem failLexically (kind : LexicalKind) : Ends I E (Reader.failLexically kind : Op α) := by
  refine Op.ends_get_bind fun r _ => hE.acceptMatch.bind fun _ => ?_
  exact fun s h => .error _ (hE.failing s kind _ h)

theorem checkCount (m : Match) (counts : Option (List Int)) :
    Ends I E (Reader.checkCount m counts) := by
  unfold Reader.checkCount
  split
  · exact hE.failLexically _
  · exact Op.ends_pure ()

theorem acceptDelimiter {d : Json} (hd : Sought I E d) : Ends I E (Reader.acceptDelimiter d) := by
  unfold Reader.acceptDelimiter
  split
  · exact hE.acceptText hd.begins
  · exact hd.begins.ends_observe

theorem readBlock {opener closer : Json} (hopener : Sought I E opener)
    (hcloser : Sought I E closer) : Ends I E (Reader.readBlock opener closer) := by
  refine Op.ends_loop (fun done => Op.ends_get_bind fun r _ => ?_) []
  split
  · exact Op.ends_pure _
  · refine (hE.acceptDelimiter hcloser).bind fun closed => ?_
    split
    · exact Op.ends_pure _
    · refine hopener.stands.ends_observe.bind fun nested => ?_
      split
      · exact hE.failLexically _
      · refine hE.next.bind fun c? => ?_
        cases c? <;> exact Op.ends_pure _

theorem forgetMatch : Ends I E Reader.forgetMatch := Op.ends_modify fun r h => hE.matching r none h

theorem blockComment (hI : ∀ r, I r → Delimiting I E r.config) (keep : Bool) :
    Ends I E (Reader.blockComment keep) := by
  refine Op.ends_get_bind fun r h => hE.forgetMatch.bind fun _ => ?_
  have hd := hI r h
  refine (hE.readBlock hd.opener hd.closer).bind fun done => Op.ends_get_bind fun s _ => ?_
  split
  · exact hE.failLexically _
  · exact (hd.opener.joins keep _ _).ends_ofExcept

theorem lineComment (hI : ∀ r, I r → Delimiting I E r.config) (keep : Bool) :
    Ends I E (Reader.lineComment keep) := by
  refine Op.ends_get_bind fun r h => hE.forgetMatch.bind fun _ => ?_
  refine hE.cacheRemainder.bind fun text => (hE.accept _).bind fun _ => ?_
  exact ((hI r h).lineComment.joins keep _ _).ends_ofExcept

theorem skip (hI : ∀ r, I r → Delimiting I E r.config) {t : Trivia} (ht : Delimiting I E t.config)
    (hblank : Asks I E (Reader.lookAhead 0)) : Ends I E t.skip := by
  refine (Op.ends_loop (fun comments => Op.ends_get_bind fun start _ => ?_) []).bind fun comments =>
    Op.ends_pure _
  split
  · exact Op.ends_pure _
  · refine hblank.ends_observe.bind fun c? => ?_
    split
    · exact hE.next.bind fun _ => Op.ends_pure _
    · refine (hE.acceptDelimiter ht.opener).bind fun opened => ?_
      split
      · exact (hE.blockComment hI _).bind fun _ => Op.ends_pure _
      · refine (hE.acceptDelimiter ht.lineComment).bind fun marked => ?_
        split
        · exact (hE.lineComment hI _).bind fun _ => Op.ends_pure _
        · exact Op.ends_pure _

theorem takeMatch {save : Bool} (hqueue : ∀ m, Ends I E (Reader.queueFragments m save))
    (counts : Option (List Int)) : Ends I E (Reader.takeMatch counts save) := by
  intro r h
  unfold Reader.takeMatch
  cases r.lastMatch with
  | none => exact .ok () h
  | some m => exact ((hqueue m).bind fun _ => (hE.checkCount m counts).bind fun _ => hE.acceptMatch) r h

theorem acceptFirst {save : Bool} (hqueue : ∀ m, Ends I E (Reader.queueFragments m save))
    {patterns : List Pattern.Source} (hp : ∀ p ∈ patterns, Asks I E fun _ => p.resolve)
    (counts : Option (List Int)) (text : Option Text) :
    Ends I E (Reader.acceptFirst patterns counts text save) := by
  refine (hE.matchFirst hp text).bind fun found => ?_
  cases found with
  | true => exact (hE.takeMatch hqueue counts).bind fun _ => Op.ends_pure true
  | false => exact Op.ends_pure false

theorem run (hblames : Op.Blames I E) {o : Operation} (htext : o.LeavesText)
    (hqueue : o.LeavesQueue) : Ends I E o.run := by
  intro r h
  cases o with
  | next => exact (hE.next r h).map _
  | accept n => exact (hE.accept n r h).map _
  | acceptText t => exact (hE.acceptText (hblames.asks fun _ => Reader.failsAside_looksAt t) r h).map _
  | cacheRemainder => exact (hE.cacheRemainder r h).map _
  | remainder => exact (hE.remainder r h).map _
  | take limit => exact (hE.take limit r h).map _
  | matchPattern p text =>
    exact (hE.matchPattern (hblames.asks fun _ => Reader.failsAside_resolve p) text r h).map _
  | blockComment keep => exact (hE.blockComment (fun _ _ => hblames.delimiting _) keep r h).map _
  | lineComment keep => exact (hE.lineComment (fun _ _ => hblames.delimiting _) keep r h).map _
  | skip t =>
    exact (hE.skip (fun _ _ => hblames.delimiting _) (hblames.delimiting t.config)
      (hblames.asks fun _ => Reader.failsAside_lookAhead 0) r h).map _
  | replace | close | breakStream => exact htext.elim
  | acceptFirst | queueGroup | fetchGroup | popCapture | drainQueue | clearQueue => exact hqueue.elim

end Steps

namespace Endings

open Op (Ends Asks)

variable {I : Reader → Prop} {E : Fault → Reader → Prop} (hE : Endings I E)

include hE

theorem queueFragments (m : Match) (save : Bool) : Ends I E (Reader.queueFragments m save) := by
  intro r h
  cases save with
  | false => exact .ok () h
  | true => exact .ok () (hE.queueing r _ h)

theorem acceptFirst {patterns : List Pattern.Source}
    (hp : ∀ p ∈ patterns, Asks I E fun _ => p.resolve) (counts : Option (List Int))
    (text : Option Text) (save : Bool) : Ends I E (Reader.acceptFirst patterns counts text save) :=
  hE.toSteps.acceptFirst (fun m => hE.queueFragments m save) hp counts text

theorem drainQueue : Ends I E Reader.drainQueue := fun r h => .ok _ (hE.queueing r [] h)

theorem fragments (hI : ∀ r, I r → Delimiting I E r.config) {s : Scan}
    (hs : Delimiting I E s.config) (hblank : Asks I E (Reader.lookAhead 0))
    (hp : ∀ p ∈ s.patterns ++ [Scan.singleCharacter], Asks I E fun _ => p.resolve) :
    Ends I E s.fragments := by
  have hmatch : Ends I E s.matchHere := Op.ends_get_bind fun r _ =>
    (hE.acceptFirst hp none none true).bind fun found => hE.drainQueue.bind fun queue =>
      Op.ends_get_bind fun t _ => Op.ends_pure _
  have hone : Ends I E Scan.takeOne := Op.ends_get_bind fun r _ => hE.toSteps.next.bind fun c? =>
    Op.ends_pure _
  refine (Op.ends_loop (fun done => ?_) []).bind fun found => Op.ends_pure _
  refine (hE.toSteps.skip hI hs hblank).bind fun comments => Op.ends_get_bind fun r _ => ?_
  split
  · exact Op.ends_pure _
  · refine hmatch.bind fun x => ?_
    split
    split
    · exact Op.ends_pure _
    · exact hone.bind fun one => Op.ends_pure _

end Endings
end LineLexer
