import LineLexer.Proofs.Endings
import Mathlib

/-!
# To take characters is to take one after the other

Within a line characters are taken at once. What goes beyond it is taken from its last character
on, one by one, and a move that fails there leaves the reader as the failing step does. So nothing
tells a move over some characters from as many single steps, and two moves that follow each other
are one move.
-/

namespace LineLexer.Reader

/-- At the end of input, or with a character of the line under the cursor. -/
def Stands (r : Reader) : Prop := r.ended = true ∨ r.cursor < r.line.length

theorem stands_iff {r : Reader} : r.Stands ↔ r.ended = true ∨ r.rest ≠ [] := by
  have hpos : r.cursor < r.line.length ↔ 0 < r.rest.length := by
    rw [length_line]
    omega
  rw [Stands, hpos, List.length_pos_iff]

section Steps

theorem steps_zero : steps 0 = (pure () : Op Unit) := rfl

theorem steps_succ_eq_bind (n : Nat) : steps (n + 1) = (next >>= fun _ => steps n : Op Unit) :=
  funext (steps_succ n)

theorem steps_add (m n : Nat) : steps (m + n) = (steps m >>= fun _ => steps n : Op Unit) := by
  induction m with
  | zero => rw [Nat.zero_add, steps_zero, pure_bind]
  | succ m ih => rw [Nat.succ_add, steps_succ_eq_bind, steps_succ_eq_bind, ih, bind_assoc]

theorem foldlM_next (start n : Nat) :
    (List.range' start n).foldlM (fun _ _ => discard next) () = steps n := by
  induction n generalizing start with
  | zero => rfl
  | succ n ih =>
    have hmore : (fun done => (List.range' (start + 1) n).foldlM (fun _ _ => discard next) done) =
        fun _ => steps n := funext fun _ => ih _
    rw [List.range'_succ, List.foldlM_cons, hmore, steps_succ_eq_bind]
    exact bind_map_left _ next _

theorem for_next (n : Nat) : (do for _ in [0:n] do discard next : Op Unit) = steps n := by
  simpa using foldlM_next 0 n

end Steps

section Within

variable {r s : Reader}

theorem advance_advance (r : Reader) (m n : Nat) : (r.advance m).advance n = r.advance (m + n) := by
  have hpassed : ((r.rest.drop m).take n).reverse ++ ((r.rest.take m).reverse ++ r.passed) =
      (r.rest.take (m + n)).reverse ++ r.passed := by
    rw [← List.append_assoc, ← List.reverse_append, ← List.take_add]
  simp only [advance, hpassed, List.drop_drop]

theorem behindLine_advance {n : Nat} (h : n ≤ r.rest.length) :
    (r.advance n).behindLine = r.behindLine := by
  have hleft : (r.advance n).rest.length = r.rest.length - n := List.length_drop
  rw [behindLine, behindLine, hleft, advance_advance, Nat.add_sub_cancel' h]

theorem next_of_lt (hended : r.ended = false) (h : 1 < r.rest.length) :
    ∃ c, next r = .ok (some c) (r.advance 1) := by
  match hrest : r.rest with
  | [] | [_] => simp [hrest] at h
  | c :: d :: rest => exact ⟨c, next_of_inner hended hrest⟩

theorem steps_of_lt {n : Nat} (hended : r.ended = false) (hpos : 0 < n) (hlt : n < r.rest.length) :
    steps n r = .ok () (r.advance n) := by
  induction n generalizing r with
  | zero => omega
  | succ n ih =>
    obtain ⟨c, hnext⟩ := next_of_lt hended (by omega)
    rw [steps_succ, Op.bind_of_ok hnext]
    by_cases hlast : n = 0
    · rw [hlast]
      rfl
    · have hleft : (r.advance 1).rest.length = r.rest.length - 1 := List.length_drop
      rw [ih (r := r.advance 1) hended (by omega) (by omega), advance_advance, Nat.add_comm]

theorem steps_of_ge {n : Nat} (hended : r.ended = false) (hrest : r.rest ≠ [])
    (hge : r.rest.length ≤ n) :
    steps n r = (nextLine >>= fun _ => steps (n - r.rest.length) : Op Unit) r.behindLine := by
  induction hlength : r.rest.length generalizing r n with
  | zero => exact absurd (List.length_eq_zero_iff.1 hlength) hrest
  | succ m ih =>
    obtain ⟨n, rfl⟩ : ∃ k, n = k + 1 := ⟨n - 1, by omega⟩
    rw [Nat.add_sub_add_right]
    by_cases hlast : m = 0
    · obtain ⟨c, hc⟩ : ∃ c, r.rest = [c] := List.length_eq_one_iff.1 (by omega)
      rw [hlast, steps_of_last n hended hc, Nat.sub_zero]
    · obtain ⟨c, hnext⟩ := next_of_lt hended (by omega)
      have hleft : (r.advance 1).rest.length = m := by
        show (r.rest.drop 1).length = m
        rw [List.length_drop, hlength, Nat.add_sub_cancel]
      have hne : (r.advance 1).rest ≠ [] := List.ne_nil_of_length_pos (by omega)
      rw [steps_succ, Op.bind_of_ok hnext, ih (r := r.advance 1) hended hne (by omega) hleft,
        behindLine_advance (by omega)]

end Within

section Stands

variable {r s : Reader}

theorem steps_of_ended (h : r.ended = true) (n : Nat) : steps n r = .ok () r := by
  induction n with
  | zero => rfl
  | succ n ih => rw [steps_succ, Op.bind_of_ok (next_of_ended h), ih]

theorem accept_of_stands (h : r.Stands) (n : Nat) : accept n r = steps n r := by
  cases hended : r.ended with
  | true => rw [accept_of_stop (.inl hended), steps_of_ended hended]
  | false =>
    have hrest : r.rest ≠ [] := (stands_iff.1 h).resolve_left (by simp [hended])
    have hline : r.line ≠ [] := by simp [line, hrest]
    by_cases hzero : n = 0
    · rw [hzero]
      exact accept_of_stop (.inr (Int.le_refl 0))
    · have hpos : 0 < (n : Int) := by omega
      by_cases hlt : n < r.rest.length
      · rw [accept_of_lt hended hpos hlt, steps_of_lt hended (by omega) hlt, Int.toNat_natCast]
      · rw [accept_of_beyond hended hpos (Nat.le_of_not_lt hlt) hline,
          steps_of_ge hended hrest (Nat.le_of_not_lt hlt), Int.toNat_natCast]

theorem stands_of_nextLine (hended : r.ended = false) (h : nextLine r = .ok () s) : s.Stands := by
  have hends := readsOn_nextLine hended
  rw [h] at hends
  cases hends with
  | line stream hopen hline hbody => exact stands_iff.2 (.inr (by simp [startLine, hline]))
  | stop stream hopen => exact .inl (ended_endInput _)

theorem moving_stands : Moving Stands fun _ _ => True where
  inLine r n _ hn _ := stands_iff.2 (.inr (by simpa [advance] using hn))
  onward r hended _ _ := by
    cases hload : nextLine r.behindLine with
    | ok _ s => exact .ok () (stands_of_nextLine (r := r.behindLine) hended hload)
    | error fault s => exact .error fault trivial
  nowhere _ _ _ _ := trivial

theorem stands_of_steps {n : Nat} (h : r.Stands) (hsteps : steps n r = .ok () s) : s.Stands := by
  have hends := moving_stands.ends_steps n r h
  rw [hsteps] at hends
  cases hends
  assumption

theorem accept_accept (h : r.Stands) (m n : Nat) :
    (do accept m; accept n : Op Unit) r = accept (m + n : Nat) r := by
  rw [accept_of_stands h, steps_add]
  cases hm : steps m r with
  | ok _ s =>
    have hfirst : accept m r = .ok () s := (accept_of_stands h m).trans hm
    rw [Op.bind_of_ok hfirst, Op.bind_of_ok hm, accept_of_stands (stands_of_steps h hm)]
  | error fault s =>
    have hfirst : accept m r = .error fault s := (accept_of_stands h m).trans hm
    rw [Op.bind_of_error hfirst, Op.bind_of_error hm]

end Stands

/-- Wherever a reader stands, on an edited line too and whatever its file does next, to take some
characters is to step as often: the same happens to the reader, and the first step that fails ends
both with its fault. So characters can be taken in any portions. -/
theorem accept_eq_singly {r : Reader} (h : r.Stands) :
    (∀ n : Nat, accept n r = (do for _ in [0:n] do discard next : Op Unit) r) ∧
    ∀ m n : Nat, (do accept m; accept n : Op Unit) r = accept (m + n : Nat) r :=
  ⟨fun n => by rw [for_next, accept_of_stands h], accept_accept h⟩

theorem accept_eq_singly_broken :
    ∃ start r s, ofFile (({} : FileSystem).addFile ['f'] [0x61, 0x62, 0x0A, 0x63]) ['f'] {} = .ok start ∧
      Demand.after [.act (.replace [0, 1] ['x', 'y']), .act .next, .act (.breakStream ['e'])] start = r ∧
      r.Stands ∧ (do for _ in [0:5] do discard next : Op Unit) r = .error (.fatal ['f'] 1 (.device ['e'])) s ∧
      (do accept 2; accept 3 : Op Unit) r = .error (.fatal ['f'] 1 (.device ['e'])) s ∧
      s.rest = [] := by
  obtain ⟨start, r, s, hopen, hafter, hstands, hfails, hrest⟩ : ∃ start r s,
      ofFile (({} : FileSystem).addFile ['f'] [0x61, 0x62, 0x0A, 0x63]) ['f'] {} = .ok start ∧
      Demand.after [.act (.replace [0, 1] ['x', 'y']), .act .next, .act (.breakStream ['e'])] start = r ∧
      r.Stands ∧ accept 5 r = .error (.fatal ['f'] 1 (.device ['e'])) s ∧ s.rest = [] :=
    ⟨_, _, _, by cbv, rfl, .inr (by cbv), by cbv, by cbv⟩
  obtain ⟨hsingly, hportions⟩ := accept_eq_singly hstands
  exact ⟨start, r, s, hopen, hafter, hstands, (hsingly 5).symm.trans hfails,
    (hportions 2 3).trans hfails, hrest⟩

end LineLexer.Reader
