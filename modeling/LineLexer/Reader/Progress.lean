import LineLexer.Reader.Cursor

/-! Moves take characters off the front of the unread text and do nothing else to it. A loop
whose turns take at least one character each therefore ends. -/

namespace LineLexer.Reader

open Input (LineStream withFinalNewline)

@[simp] theorem ended_note (r : Reader) (n : Note) : (r.note n).ended = r.ended := rfl

@[simp] theorem ended_close (r : Reader) : r.close.ended = r.ended := by
  unfold close; split <;> rfl

@[simp] theorem ended_toLast (r : Reader) : r.toLast.ended = r.ended := by
  unfold toLast; split <;> rfl

@[simp] theorem ended_endInput (r : Reader) : r.endInput.ended = true := by
  simp [endInput]

theorem unreadText_of_ended {r : Reader} (h : r.ended = true) : r.unreadText = [] := by
  simp [unreadText, h]

theorem unreadText_advance {r : Reader} {n : Nat} (hr : r.ended = false)
    (h : n ≤ r.rest.length) : (r.advance n).unreadText = r.unreadText.drop n := by
  simp only [unreadText, advance, hr, Bool.false_eq_true, if_false]
  rw [List.drop_append_of_le_length h]

theorem unreadText_loadLine {r s : Reader} (hr : r.ended = false) (hrest : r.rest = [])
    (h : loadLine r = .ok () s) : s.unreadText = r.unreadText := by
  simp only [loadLine, hr, Bool.false_eq_true, if_false] at h
  split at h
  · simp at h
  · rename_i stream hstream
    have htext : r.unreadText = withFinalNewline stream.text := by
      simp [unreadText, hr, hrest, hstream]
    split at h
    · simp at h
    · rename_i t hread
      injection h with _ hs
      rw [← hs, unreadText_of_ended (ended_endInput _), htext, LineStream.withFinalNewline_text hread,
        LineStream.text_eq_nil_of_readLine hread]
      simp
    · rename_i c line t hread
      injection h with _ hs
      rw [← hs, htext, LineStream.withFinalNewline_text hread]
      simp [unreadText, startLine]

theorem nextLine_eq_ok {r s : Reader} (h : nextLine r = .ok () s) : loadLine r = .ok () s := by
  unfold nextLine at h
  split at h
  · rename_i heq
    rw [heq, h]
  · unfold report at h
    split at h
    · split at h <;> simp at h
    · simp at h

theorem unreadText_next {r s : Reader} {c? : Option Char} (hr : r.ended = false)
    (h : next r = .ok c? s) : ∃ c, c? = some c ∧ r.unreadText = c :: s.unreadText := by
  simp only [next, hr, Bool.false_eq_true, if_false] at h
  split at h
  · simp at h
  · rename_i c hrest
    split at h
    · rename_i t hline
      injection h with hc hs
      subst hc hs
      refine ⟨c, rfl, ?_⟩
      rw [unreadText_loadLine (by exact hr) (by simp [advance, hrest]) (nextLine_eq_ok hline),
        unreadText_advance hr (by simp [hrest])]
      simp [unreadText, hr, hrest]
    · simp at h
  · rename_i c d rest hrest
    injection h with hc hs
    subst hc hs
    refine ⟨c, rfl, ?_⟩
    rw [unreadText_advance hr (by simp [hrest])]
    simp [unreadText, hr, hrest]

theorem next_of_ended {r : Reader} (h : r.ended = true) : next r = .ok none r := by
  simp [next, h]

theorem unreadText_steps {n : Nat} {r s : Reader} (h : steps n r = .ok () s) :
    s.unreadText = r.unreadText.drop n := by
  induction n generalizing r with
  | zero =>
    simp only [steps, EStateM.Result.ok.injEq, true_and] at h
    simp [h]
  | succ n ih =>
    simp only [steps] at h
    split at h
    · rename_i c? t hnext
      rw [ih h]
      cases hr : r.ended with
      | true =>
        rw [next_of_ended hr] at hnext
        injection hnext with _ ht
        simp [← ht, unreadText_of_ended hr]
      | false =>
        obtain ⟨c, -, htext⟩ := unreadText_next hr hnext
        simp [htext]
    · simp at h

theorem unreadText_toLast {r : Reader} (hr : r.ended = false) (h : r.rest ≠ []) :
    r.toLast.unreadText = r.unreadText.drop (r.rest.length - 1) := by
  obtain ⟨init, c, hrest⟩ : ∃ init c, r.rest = init ++ [c] :=
    ⟨_, _, (List.dropLast_concat_getLast h).symm⟩
  have htl : r.toLast = { r with passed := init.reverse ++ r.passed, rest := [c] } := by
    simp [toLast, hrest]
  simp [htl, unreadText, hr, hrest]

theorem unreadText_toLast_of_nil {r : Reader} {c : Char} {passed : Text} (hr : r.ended = false)
    (h : r.rest = []) (hp : r.passed = c :: passed) :
    r.toLast.unreadText = c :: r.unreadText := by
  have htl : r.toLast = { r with passed, rest := [c] } := by
    unfold toLast
    simp [h, hp]
  simp [htl, unreadText, hr, h]

theorem unreadText_accept {n : Int} {r s : Reader} (h : accept n r = .ok () s) :
    s.unreadText = r.unreadText.drop n.toNat := by
  unfold accept at h
  split at h
  · rename_i hstop
    injection h with _ hs
    subst hs
    rcases Bool.or_eq_true_iff.1 hstop with he | hn
    · simp [unreadText_of_ended he]
    · have : n.toNat = 0 := by
        have := of_decide_eq_true hn
        omega
      simp [this]
  · rename_i hgo
    simp only [Bool.or_eq_true, decide_eq_true_eq, not_or, Bool.not_eq_true, Int.not_le] at hgo
    obtain ⟨hr, hn⟩ := hgo
    split at h
    · rename_i hlt
      injection h with _ hs
      rw [← hs, unreadText_advance hr (by omega)]
    · rename_i hge
      have htext := unreadText_steps h
      cases hrest : r.rest with
      | cons d rest =>
        rw [htext, unreadText_toLast hr (by simp [hrest]), List.drop_drop]
        congr 1
        have : 0 < r.rest.length := by simp [hrest]
        omega
      | nil =>
        cases hp : r.passed with
        | cons c passed =>
          rw [htext, unreadText_toLast_of_nil hr hrest hp, hrest]
          simp
        | nil =>
          have htl : r.toLast = r := by
            unfold toLast
            simp [hrest, hp]
          rw [htl, hrest] at h
          obtain ⟨k, hk⟩ : ∃ k, n.toNat + 1 - ([] : Text).length = k + 1 := ⟨n.toNat, by simp⟩
          rw [hk] at h
          simp [steps, next, hr, hrest] at h

theorem unread_accept_lt {n : Int} {r s : Reader} (hrest : r.rest ≠ []) (h : accept n r = .ok () s) :
    s = r ∨ s.unread < r.unread := by
  by_cases hstop : (r.ended || decide (n ≤ 0)) = true
  · left
    simp only [accept, hstop, if_true] at h
    injection h with _ hs
    exact hs.symm
  · right
    simp only [Bool.or_eq_true, decide_eq_true_eq, not_or, Bool.not_eq_true, Int.not_le] at hstop
    have hlen : 0 < r.unreadText.length := by
      have := List.length_pos_iff.2 hrest
      simp only [unreadText, hstop.1, Bool.false_eq_true, if_false, List.length_append]
      omega
    simp only [unread, unreadText_accept h, List.length_drop]
    omega

theorem acceptText_eq_ok {t : Text} {b : Bool} {r s : Reader} (h : acceptText t r = .ok b s) :
    r.looksAt t = .ok b ∧ if b then accept t.length r = .ok () s else r = s := by
  unfold acceptText at h
  split at h
  · simp at h
  · rename_i hlook
    injection h with hb hs
    subst hb hs
    simp [hlook]
  · rename_i hlook
    split at h
    · rename_i u hacc
      injection h with hb hs
      subst hb hs
      simp [hlook, hacc]
    · simp at h

theorem rest_ne_nil_of_looksAt {t : Text} {r : Reader} (ht : t ≠ []) (h : r.looksAt t = .ok true) :
    r.ended = false ∧ r.rest ≠ [] := by
  unfold looksAt at h
  split at h
  · rename_i c
    cases hla : r.lookAhead 0 with
    | error fault => simp [hla, bind, Except.bind] at h
    | ok c? =>
      have hc : c? = some c := by simpa [hla, bind, Except.bind, pure, Except.pure] using h
      subst hc
      simp only [lookAhead, Int.lt_irrefl, if_false] at hla
      split at hla
      · simp at hla
      · rename_i hr
        refine ⟨by simpa using hr, ?_⟩
        rintro hnil
        simp [hnil] at hla
  · cases hsub : r.substring t.length with
    | error fault => simp [hsub, bind, Except.bind] at h
    | ok u =>
      have hu : u = t := by simpa [hsub, bind, Except.bind, pure, Except.pure] using h
      subst hu
      simp only [substring] at hsub
      split at hsub
      · simp at hsub
      · split at hsub
        · simp at hsub
          exact absurd hsub ht
        · rename_i hr
          refine ⟨by simpa using hr, ?_⟩
          rintro hnil
          simp [hnil] at hsub
          exact absurd hsub ht

theorem unread_acceptText {t : Text} {r s : Reader} (ht : t ≠ [])
    (h : acceptText t r = .ok true s) : s.unread < r.unread := by
  obtain ⟨hlook, hacc⟩ := acceptText_eq_ok h
  obtain ⟨hr, hrest⟩ := rest_ne_nil_of_looksAt ht hlook
  have htext := unreadText_accept (by simpa using hacc)
  have hpos : 0 < t.length := List.length_pos_iff.2 ht
  have hlen : 0 < r.unreadText.length := by
    have := List.length_pos_iff.2 hrest
    simp only [unreadText, hr, Bool.false_eq_true, if_false, List.length_append]
    omega
  simp only [unread, htext, List.length_drop]
  omega

theorem unread_accept_le {n : Int} {r s : Reader} (h : accept n r = .ok () s) :
    s.unread ≤ r.unread := by
  simp [unread, unreadText_accept h]

theorem unread_next {r s : Reader} {c? : Option Char} (hr : r.ended = false)
    (h : next r = .ok c? s) : s.unread < r.unread := by
  obtain ⟨c, -, htext⟩ := unreadText_next hr h
  simp [unread, htext]

end Reader

namespace Op

def loop {α β : Type} (turn : β → Op (β ⊕ α))
    (shrinks : ∀ b r b' r', turn b r = .ok (.inl b') r' → r'.unread < r.unread) (b : β)
    (r : Reader) : EStateM.Result Fault Reader α :=
  match _h : turn b r with
  | .ok (.inl b') r' => loop turn shrinks b' r'
  | .ok (.inr a) r' => .ok a r'
  | .error fault r' => .error fault r'
termination_by r.unread
decreasing_by exact shrinks _ _ _ _ (by assumption)

theorem loop_of_inl {α β : Type} {turn : β → Op (β ⊕ α)}
    {shrinks : ∀ b r b' r', turn b r = .ok (.inl b') r' → r'.unread < r.unread} {b b' : β}
    {r r' : Reader} (h : turn b r = .ok (.inl b') r') :
    loop turn shrinks b r = loop turn shrinks b' r' := by
  rw [loop]
  split <;> simp_all

theorem loop_of_inr {α β : Type} {turn : β → Op (β ⊕ α)}
    {shrinks : ∀ b r b' r', turn b r = .ok (.inl b') r' → r'.unread < r.unread} {b : β} {a : α}
    {r r' : Reader} (h : turn b r = .ok (.inr a) r') : loop turn shrinks b r = .ok a r' := by
  rw [loop]
  split <;> simp_all

theorem loop_of_error {α β : Type} {turn : β → Op (β ⊕ α)}
    {shrinks : ∀ b r b' r', turn b r = .ok (.inl b') r' → r'.unread < r.unread} {b : β}
    {r r' : Reader} {fault : Fault} (h : turn b r = .error fault r') :
    loop turn shrinks b r = .error fault r' := by
  rw [loop]
  split <;> simp_all

theorem unread_loop {α β : Type} {turn : β → Op (β ⊕ α)}
    {shrinks : ∀ b r b' r', turn b r = .ok (.inl b') r' → r'.unread < r.unread}
    (le : ∀ b r x r', turn b r = .ok x r' → r'.unread ≤ r.unread) {b : β} {a : α} {r s : Reader}
    (h : loop turn shrinks b r = .ok a s) : s.unread ≤ r.unread := by
  induction hn : r.unread using Nat.strongRecOn generalizing b r with
  | _ n ih =>
    subst hn
    unfold loop at h
    split at h
    · rename_i b' r' hturn
      have hlt := shrinks _ _ _ _ hturn
      exact Nat.le_trans (ih _ hlt h rfl) (Nat.le_of_lt hlt)
    · rename_i a' r' hturn
      cases h
      exact le _ _ _ _ hturn
    · cases h

theorem loop_eq_ok {α β : Type} {turn : β → Op (β ⊕ α)}
    {shrinks : ∀ b r b' r', turn b r = .ok (.inl b') r' → r'.unread < r.unread} {b : β} {a : α}
    {r s : Reader} (h : loop turn shrinks b r = .ok a s) :
    ∃ b' r', turn b' r' = .ok (.inr a) s := by
  induction hn : r.unread using Nat.strongRecOn generalizing b r with
  | _ n ih =>
    subst hn
    unfold loop at h
    split at h
    · rename_i b' r' hturn
      exact ih _ (shrinks _ _ _ _ hturn) h rfl
    · rename_i a' r' hturn
      cases h
      exact ⟨_, _, hturn⟩
    · cases h

end Op
end LineLexer
