import LineLexer.Reader.Matching

/-! Comments whose opening delimiter has been taken already. A delimiter is a text; other values
can stand in settings as well and are never found, and one without a length cannot even be
looked for. -/

namespace LineLexer.Reader

def looksAtDelimiter (d : Json) (r : Reader) : Except Fault Bool :=
  match d with
  | .text t => r.looksAt t
  | d => match d.size with
    | .error m => .error (.misuse m)
    | .ok n => if n = 1 then (r.lookAhead 0).map fun _ => false else .ok false

def acceptDelimiter (d : Json) : Op Bool :=
  match d with
  | .text t => acceptText t
  | d => Op.observe (looksAtDelimiter d)

def lineLooksAt (d : Json) (r : Reader) : Except Fault Bool :=
  match d with
  | .text t => do return (← r.substring t.length) == t
  | d => match d.size with
    | .error m => .error (.misuse m)
    | .ok _ => .ok false

def delimiterText : Json → Text
  | .text t => t
  | _ => []

/-- One turn of reading a block comment, with what has been read of it, latest first: it ends
with the closer or the input, and an opener inside it is an error. -/
def blockTurn (opener closer : Json) (done : Text) : Op (Text ⊕ Text) := do
  if (← get).ended then return .inr done
  else if ← acceptDelimiter closer then return .inr ((delimiterText closer).reverse ++ done)
  else if ← Op.observe (lineLooksAt opener) then failLexically .nestedBlockComment
  else match ← next with
    | some c => return .inl (c :: done)
    | none => return .inr done

theorem observe_eq_ok {α : Type} {f : Reader → Except Fault α} {a : α} {r s : Reader}
    (h : Op.observe f r = .ok a s) : f r = .ok a ∧ r = s := by
  unfold Op.observe at h
  split at h <;> cases h
  exact ⟨‹_›, rfl⟩

theorem acceptDelimiter_eq_false {d : Json} {r s : Reader} (h : acceptDelimiter d r = .ok false s) :
    r = s := by
  unfold acceptDelimiter at h
  split at h
  · simpa using (acceptText_eq_ok h).2
  · exact (observe_eq_ok h).2

theorem eq_text_of_looksAtDelimiter {d : Json} {r : Reader} (h : looksAtDelimiter d r = .ok true) :
    ∃ t, d = .text t := by
  unfold looksAtDelimiter at h
  split at h
  · exact ⟨_, rfl⟩
  · split at h
    · cases h
    · split at h
      · cases hla : r.lookAhead 0 <;> rw [hla] at h <;> cases h
      · cases h

theorem unread_acceptDelimiter {d : Json} {r s : Reader} (hd : d.isTruthy = true)
    (h : acceptDelimiter d r = .ok true s) : s.unread < r.unread := by
  unfold acceptDelimiter at h
  split at h
  · rename_i t
    refine unread_acceptText ?_ h
    rintro rfl
    simp [Json.isTruthy] at hd
  · rename_i hne
    obtain ⟨t, rfl⟩ := eq_text_of_looksAtDelimiter (observe_eq_ok h).1
    exact absurd rfl (hne t)

theorem unread_acceptDelimiter_le {d : Json} {b : Bool} {r s : Reader}
    (h : acceptDelimiter d r = .ok b s) : s.unread ≤ r.unread := by
  cases b with
  | false => exact acceptDelimiter_eq_false h ▸ Nat.le_refl _
  | true =>
    unfold acceptDelimiter at h
    split at h
    · exact unread_accept_le (by simpa using (acceptText_eq_ok h).2)
    · exact (observe_eq_ok h).2 ▸ Nat.le_refl _

theorem failLexically_ne_ok {α : Type} {kind : LexicalKind} {r s : Reader} {a : α} :
    failLexically kind r ≠ .ok a s := by
  intro h
  obtain ⟨_, _, -, h⟩ := Op.bind_eq_ok.1 h
  obtain ⟨_, _, -, h⟩ := Op.bind_eq_ok.1 h
  obtain ⟨_, _, -, h⟩ := Op.bind_eq_ok.1 h
  obtain ⟨_, _, -, h⟩ := Op.bind_eq_ok.1 h
  cases h

theorem blockTurn_eq_ok {opener closer : Json} {done : Text} {x : Text ⊕ Text} {r s : Reader}
    (h : blockTurn opener closer done r = .ok x s) :
    s.unread ≤ r.unread ∧ ∀ more, x = .inl more → s.unread < r.unread := by
  unfold blockTurn at h
  obtain ⟨r', _, hget, h⟩ := Op.bind_eq_ok.1 h
  cases hget
  split at h
  · obtain ⟨rfl, rfl⟩ := Op.pure_eq_ok.1 h
    simp
  · rename_i hended
    obtain ⟨closed, t, hclosed, h⟩ := Op.bind_eq_ok.1 h
    split at h
    · obtain ⟨rfl, rfl⟩ := Op.pure_eq_ok.1 h
      exact ⟨unread_acceptDelimiter_le hclosed, by simp⟩
    · rename_i hfalse
      rw [Bool.not_eq_true] at hfalse
      subst hfalse
      obtain rfl := acceptDelimiter_eq_false hclosed
      obtain ⟨nested, t, hnested, h⟩ := Op.bind_eq_ok.1 h
      obtain ⟨-, rfl⟩ := observe_eq_ok hnested
      split at h
      · exact absurd h failLexically_ne_ok
      · obtain ⟨c?, t, hnext, h⟩ := Op.bind_eq_ok.1 h
        have hlt := unread_next (by simpa using hended) hnext
        split at h <;> obtain ⟨rfl, rfl⟩ := Op.pure_eq_ok.1 h
        · exact ⟨Nat.le_of_lt hlt, fun _ _ => hlt⟩
        · exact ⟨Nat.le_of_lt hlt, by simp⟩

def readBlock (opener closer : Json) : Op Text :=
  Op.loop (blockTurn opener closer) (fun _ _ _ _ h => (blockTurn_eq_ok h).2 _ rfl) []

def keptComment (keep : Bool) (delimiter : Json) (misuse : String → Misuse) (text : Text) :
    Except Fault (Option Text) :=
  if keep then match delimiter with
    | .text t => .ok (some (t ++ text))
    | d => .error (.misuse (misuse d.kind))
  else .ok none

def forgetMatch : Op Unit := modify fun r => { r with lastMatch := none }

def blockComment (keep : Bool) : Op (Option Text) := do
  let config := (← get).config
  forgetMatch
  let done ← readBlock config.opener config.closer
  if (← get).ended then failLexically .unexpectedEnd
  else Op.ofExcept (keptComment keep config.opener (.joinItem 0) done.reverse)

def lineComment (keep : Bool) : Op (Option Text) := do
  let config := (← get).config
  forgetMatch
  let text ← cacheRemainder
  accept text.length
  Op.ofExcept (keptComment keep config.lineComment .joinedTo text)

theorem ofExcept_eq_ok {α : Type} {x : Except Fault α} {a : α} {r s : Reader}
    (h : Op.ofExcept x r = .ok a s) : x = .ok a ∧ r = s := by
  cases x with
  | ok b =>
    obtain ⟨rfl, rfl⟩ := Op.pure_eq_ok.1 h
    exact ⟨rfl, rfl⟩
  | error fault => cases h

theorem unread_blockComment {keep : Bool} {t : Option Text} {r s : Reader}
    (h : blockComment keep r = .ok t s) : s.unread ≤ r.unread := by
  obtain ⟨_, _, hget, h⟩ := Op.bind_eq_ok.1 h
  cases hget
  obtain ⟨_, u, hmod, h⟩ := Op.bind_eq_ok.1 h
  have hu : u.unread = r.unread := by cases hmod; rfl
  obtain ⟨done, v, hloop, h⟩ := Op.bind_eq_ok.1 h
  have hv : v.unread ≤ u.unread := Op.unread_loop (fun _ _ _ _ h => (blockTurn_eq_ok h).1) hloop
  obtain ⟨_, _, hget, h⟩ := Op.bind_eq_ok.1 h
  cases hget
  split at h
  · exact absurd h failLexically_ne_ok
  · obtain ⟨-, rfl⟩ := ofExcept_eq_ok h
    omega

theorem unread_lineComment {keep : Bool} {t : Option Text} {r s : Reader}
    (h : lineComment keep r = .ok t s) : s.unread ≤ r.unread := by
  obtain ⟨_, _, hget, h⟩ := Op.bind_eq_ok.1 h
  cases hget
  obtain ⟨_, u, hmod, h⟩ := Op.bind_eq_ok.1 h
  have hu : u.unread = r.unread := by cases hmod; rfl
  obtain ⟨text, v, hrem, h⟩ := Op.bind_eq_ok.1 h
  have hv : v.unread = u.unread := by cases hrem; rfl
  obtain ⟨_, w, hacc, h⟩ := Op.bind_eq_ok.1 h
  have hw := unread_accept_le hacc
  obtain ⟨-, rfl⟩ := ofExcept_eq_ok h
  omega

end LineLexer.Reader
