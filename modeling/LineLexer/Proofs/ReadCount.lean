import LineLexer.Proofs.SourceRefinement
import Mathlib

/-!
# How far a stream is read

A source reads up to the farthest visible character that it has been asked for
and not a carriage return more, or up to the end where the text does not go that
far. What has been read is not read again, nor is the end.
-/

namespace LineLexer

namespace Input

/-- So many characters from the front of a text are the fewest with so many visible ones. -/
structure Reaches (d : Nat) (t : Text) (n : Nat) : Prop where
  le : n ≤ t.length
  count : (visible (t.take n)).length = d
  least : ∀ m < n, (visible (t.take m)).length < d

section Reaching

variable {d n : Nat} {t r rest : Text} {c : Char}

theorem reaches_zero (t : Text) : Reaches 0 t 0 := ⟨Nat.zero_le _, rfl, fun m hm => by omega⟩

theorem visible_append (t u : Text) : visible (t ++ u) = visible t ++ visible u := List.filter_append ..

theorem length_visible_take_le {m : Nat} (h : m ≤ n) :
    (visible (t.take m)).length ≤ (visible (t.take n)).length :=
  ((List.take_prefix_take_left h).sublist.filter _).length_le

theorem Reaches.le_visible (h : Reaches d t n) : d ≤ (visible t).length := by
  rw [← h.count]
  exact ((List.take_sublist n t).filter _).length_le

theorem Reaches.succ (h : Reaches d t n) (hdrop : t.drop n = r ++ c :: rest) (hr : visible r = [])
    (hc : c ≠ '\r') : Reaches (d + 1) t (n + r.length + 1) := by
  have hlength : t.length - n = r.length + (rest.length + 1) := by
    rw [← List.length_drop, hdrop, List.length_append, List.length_cons]
  have hfront : t.take (n + r.length) = t.take n ++ r := by
    rw [List.take_add, hdrop, List.take_left]
  have hwith : t.take (n + r.length + 1) = t.take n ++ r ++ [c] := by
    rw [Nat.add_assoc, List.take_add, hdrop, List.take_length_add_append, List.append_assoc]
    rfl
  have hcount : (visible (t.take (n + r.length))).length = d := by
    rw [hfront, visible_append, hr, List.append_nil, h.count]
  refine ⟨by omega, ?_, fun m hm => ?_⟩
  · rw [hwith, visible_append, ← hfront, List.length_append, hcount, visible_cons hc]
    rfl
  · have hle := length_visible_take_le (t := t) (by omega : m ≤ n + r.length)
    omega

end Reaching

namespace CharStream

def reading (t : Text) (n : Nat) : CharStream := memory { text := t.drop n, reads := n }

theorem readVisible_reading {t : Text} {n : Nat} (hn : n ≤ t.length) :
    visible (t.drop n) = [] ∧ (reading t n).readVisible = (.ok none, reading t (t.length + 1)) ∨
      ∃ r c rest, t.drop n = r ++ c :: rest ∧ visible r = [] ∧ c ≠ '\r' ∧
        (reading t n).readVisible = (.ok (some c), reading t (n + r.length + 1)) := by
  induction hleft : t.drop n generalizing n with
  | nil =>
    have hend : t.length ≤ n := List.drop_eq_nil_iff.1 hleft
    obtain rfl : n = t.length := by omega
    left
    refine ⟨rfl, ?_⟩
    have hover : t.drop (t.length + 1) = [] := List.drop_eq_nil_of_le (by omega)
    rw [reading, hleft, reading, hover, readVisible_eq]
    rfl
  | cons c u ih =>
    have htail : t.drop (n + 1) = u := by rw [← List.drop_drop, hleft]; rfl
    have hlt : n < t.length := by
      by_contra hge
      rw [List.drop_eq_nil_of_le (by omega)] at hleft
      cases hleft
    have hread : (reading t n).read = (.ok (some c), reading t (n + 1)) := by
      rw [reading, hleft, reading, htail]
      rfl
    rw [readVisible_eq, hread]
    by_cases hc : c = '\r'
    · subst hc
      simp only [if_true]
      obtain ⟨hvisible, hend⟩ | ⟨r, d, rest, hsplit, hr, hd, hnext⟩ := ih (by omega) htail
      · left
        exact ⟨by rw [visible_cons_return, hvisible], hend⟩
      · right
        refine ⟨'\r' :: r, d, rest, by rw [hsplit]; rfl, by rw [visible_cons_return, hr], hd, ?_⟩
        rw [hnext, List.length_cons]
        congr 2
        omega
    · right
      refine ⟨[], c, u, rfl, rfl, hc, ?_⟩
      simp only [if_neg hc]
      rfl

/-- Of a text that is read up to its `d`-th visible character, or to its end if it has fewer. -/
def ReadUpTo (t : Text) (d : Nat) (s : CharStream) : Prop :=
  ∃ n, s = reading t n ∧ (d ≤ (visible t).length → Reaches d t n) ∧
    ((visible t).length < d → n = t.length + 1)

end CharStream
end Input

namespace Source

open Input (CharStream visible Reaches)

variable {t u : Text} {d k index : Nat} {s v : Source}

/-- Of the visible text no more has been read than `d` characters, and what has been read and not
been taken is in the window; of a text that has fewer the end has been read. -/
structure Furthest (t : Text) (d index : Nat) (s : Source) : Prop where
  read : s.stream.ReadUpTo t d
  within : d ≤ (visible t).length → s.ended = false ∧ index + s.window.size = d
  beyond : (visible t).length < d → s.ended = true

namespace Furthest

theorem of_beyond (h : Furthest t d index s) (hd : (visible t).length < d) {d' i : Nat}
    (hd' : (visible t).length < d') {w : Source} (hstream : w.stream = s.stream)
    (hended : w.ended = s.ended) : Furthest t d' i w := by
  obtain ⟨n, hreading, -, hend⟩ := h.read
  refine ⟨⟨n, hstream.trans hreading, fun hle => ?_, fun _ => hend hd⟩, fun hle => ?_, fun _ => ?_⟩
  · omega
  · omega
  · exact hended.trans (h.beyond hd)

theorem held (h : Furthest t d index s) {d' : Nat} (hd' : d' ≤ index + s.window.size) :
    Furthest t (max d d') index s := by
  by_cases hd : d ≤ (visible t).length
  · obtain ⟨-, hsize⟩ := h.within hd
    rwa [Nat.max_eq_left (by omega)]
  · exact h.of_beyond (by omega) (by omega) rfl rfl

theorem draw (h : Furthest t d index s) (hplace : At ((visible t).drop index) k s)
    {c? : Option Char} {window : Fifo (Option Char)} (hread : readChar s = .ok c? v)
    (hsize : window.size = k + 1) : Furthest t (max d (index + k + 1)) index { v with window } := by
  have hk : s.window.size = k := hplace.size
  unfold readChar at hread
  by_cases hd : d ≤ (visible t).length
  · obtain ⟨hended, hheld⟩ := h.within hd
    obtain ⟨n, hreading, hreaches, -⟩ := h.read
    have hreaches := hreaches hd
    rw [Nat.max_eq_right (by omega), show index + k + 1 = d + 1 by omega]
    rw [if_neg (ne_true_of_eq_false hended), hreading] at hread
    obtain ⟨hnone, hnext⟩ | ⟨r, c, rest, hdrop, hr, hc, hnext⟩ :=
      CharStream.readVisible_reading hreaches.le
    · have hall : (visible t).length = d := by
        rw [← hreaches.count, ← List.take_append_drop n t, Input.visible_append, hnone]
        simp
      rw [hnext] at hread
      obtain ⟨rfl, rfl⟩ := hread
      exact ⟨⟨_, rfl, fun hle => by omega, fun _ => rfl⟩, fun hle => by omega, fun _ => rfl⟩
    · have hmore := hreaches.succ hdrop hr hc
      have hle := hmore.le_visible
      rw [hnext] at hread
      obtain ⟨rfl, rfl⟩ := hread
      exact ⟨⟨_, rfl, fun _ => hmore, fun hlt => by omega⟩, fun _ => ⟨hended, by simp; omega⟩,
        fun hlt => by omega⟩
  · have hended := h.beyond (by omega)
    rw [if_pos hended] at hread
    obtain ⟨rfl, rfl⟩ := hread
    exact h.of_beyond (by omega) (by omega) rfl rfl

theorem fill (h : Furthest t d index s) (hplace : At ((visible t).drop index) k s) (missing : Nat)
    (hroom : k + missing ≤ s.window.capacity) {full : Bool}
    (hfill : Source.fill missing s = .ok full v) :
    Furthest t (max d (index + k + missing)) index v := by
  induction missing generalizing d k s with
  | zero =>
    obtain ⟨rfl, rfl⟩ := hfill
    exact h.held (by rw [hplace.size]; omega)
  | succ missing ih =>
    have hle := hplace.le
    have hend := hplace.holdsEnd
    by_cases hk : k = ((visible t).drop index).length + 1
    · rw [decide_eq_true hk] at hend
      obtain ⟨rfl, rfl⟩ := (fill_of_end hend).symm.trans hfill
      have hover : (visible t).length < d := by
        by_contra hd
        obtain ⟨hended, -⟩ := h.within (by omega)
        have hle := (hplace.unended hended).1
        omega
      exact h.of_beyond hover (by omega) rfl rfl
    · rw [decide_eq_false hk] at hend
      obtain ⟨w, window, hread, hpush, hplace', hstays⟩ := hplace.draw (by omega) (by omega)
      have hcapacity : window.capacity = s.window.capacity := hstays.capacity
      have hdrawn := h.draw hplace hread hplace'.size
      rw [fill_of_read hend hread hpush] at hfill
      cases hc : ((visible t).drop index)[k]? with
      | none =>
        rw [hc] at hfill
        obtain ⟨rfl, rfl⟩ := hfill
        have hlast := List.getElem?_eq_none_iff.1 hc
        rw [List.length_drop] at hlast
        exact hdrawn.of_beyond (by omega) (by omega) rfl rfl
      | some c =>
        rw [hc] at hfill
        have hroom' : k + 1 + missing ≤ window.capacity := by omega
        have hmore := ih hdrawn hplace' hroom' hfill
        rwa [show max (max d (index + k + 1)) (index + (k + 1) + missing) =
          max d (index + k + (missing + 1)) by omega] at hmore

theorem lookAhead (h : Furthest t d index s) (hplace : At ((visible t).drop index) k s) {n : Count}
    (hn : 0 ≤ n.value ∧ n.value < s.window.capacity) {c? : Option Char}
    (hlook : Source.lookAhead n s = .ok c? v) :
    Furthest t (max d (index + n.value.toNat + 1)) index v := by
  have hsize := hplace.size
  have hcapacity := hplace.le_capacity
  obtain ⟨full, w, j, hfill, -⟩ := hplace.fill (n.value.toNat + 1 - k) (by omega)
  have hfilled : Furthest t (max d (index + n.value.toNat + 1)) index w := by
    by_cases hheld : n.value.toNat + 1 ≤ k
    · rw [Nat.sub_eq_zero_of_le hheld] at hfill
      obtain ⟨rfl, rfl⟩ := hfill
      exact h.held (by omega)
    · have hmore := h.fill hplace _ (by omega) hfill
      rwa [show index + k + (n.value.toNat + 1 - k) = index + n.value.toNat + 1 by omega] at hmore
  rw [Source.lookAhead, get_bind, if_pos hn, hsize, bind_of_ok hfill] at hlook
  cases full with
  | true =>
    obtain ⟨rfl, rfl⟩ := hlook
    exact hfilled
  | false =>
    replace hlook : ofFifo (w.window.peek n) w = .ok c? v := hlook
    cases hpeek : w.window.peek n with
    | error fault =>
      rw [hpeek] at hlook
      cases hlook
    | ok item =>
      rw [hpeek] at hlook
      obtain ⟨rfl, rfl⟩ := hlook
      exact hfilled

theorem refilled (h : Furthest t d index s) (hplace : At ((visible t).drop index) k s) {n : Count}
    (hpos : 1 ≤ n.value) (hn : n.value ≤ s.window.capacity) (hrefilled : Refilled n s v) :
    Furthest t (max d (index + n.value.toNat)) index v := by
  unfold Refilled at hrefilled
  split at hrefilled
  · obtain ⟨c?, hlook⟩ := hrefilled
    have hmore := h.lookAhead hplace (by rw [Count.value_number]; omega) hlook
    rwa [Count.value_number,
      show index + (n.value - 1).toNat + 1 = index + n.value.toNat by omega] at hmore
  · subst hrefilled
    exact h.held (by omega)

end Furthest

/-- How far a request looks into the visible text; one that is refused looks nowhere. -/
def Request.farthest (capacity : Nat) (q : Request) (p : Spot) : Nat :=
  match q with
  | lookAhead n => if 0 ≤ n.value ∧ n.value < capacity then p.index + n.value.toNat + 1 else 0
  | accept n => if 1 ≤ n.value ∧ n.value ≤ capacity then p.index + n.value.toNat else 0
  | isEnd => p.index + 1

def farthest (capacity : Nat) (text : Text) : List Request → Spot → Nat
  | [], _ => 0
  | q :: qs, p => max (q.farthest capacity p) (farthest capacity text qs (q.runAt capacity text p).2)

section Sessions

variable {capacity : Nat} {p : Spot}

theorem AtSpot.furthest_lookAhead (h : AtSpot capacity (visible t) p s) (hf : Furthest t d p.index s)
    (n : Count) : Furthest t (max d ((Request.lookAhead n).farthest capacity p))
      ((Request.lookAhead n).runAt capacity (visible t) p).2.index ((Request.lookAhead n).run s).2 := by
  obtain ⟨k, hplace⟩ := h.place
  simp only [Request.run, Request.runAt, Request.farthest]
  by_cases hn : 0 ≤ n.value ∧ n.value < capacity
  · have hwindow : 0 ≤ n.value ∧ n.value < s.window.capacity := by rwa [h.capacity]
    obtain ⟨v, j, hlook, -⟩ := hplace.lookAhead hwindow.1 hwindow.2
    rw [if_pos hn, if_pos hn, hlook]
    exact hf.lookAhead hplace hwindow hlook
  · rw [if_neg hn, if_neg hn, lookAhead_of_outside (by rwa [h.capacity]), Nat.max_zero]
    exact hf

theorem AtSpot.furthest_isEnd (h : AtSpot capacity (visible t) p s) (hf : Furthest t d p.index s) :
    Furthest t (max d (Request.isEnd.farthest capacity p))
      (Request.isEnd.runAt capacity (visible t) p).2.index (Request.isEnd.run s).2 := by
  have hpos := h.capacity_pos
  have hnext := h.furthest_lookAhead hf (0 : Nat)
  have hfar : (Request.lookAhead (0 : Nat)).farthest capacity p = p.index + 1 := if_pos (by simpa)
  have hstays : ((Request.lookAhead (0 : Nat)).runAt capacity (visible t) p).2 = p := by
    simp only [Request.runAt]
    split <;> rfl
  have hleft : (Request.isEnd.run s).2 = ((Request.lookAhead (0 : Nat)).run s).2 := by
    show (Reply.ofResult .truth
      ((Source.lookAhead (0 : Nat) >>= fun c? => pure c?.isNone : Op Bool) s)).2 =
        (Reply.ofResult .char (Source.lookAhead (0 : Nat) s)).2
    cases hlook : Source.lookAhead (0 : Nat) s with
    | ok c? v =>
      rw [bind_of_ok hlook]
      rfl
    | error fault v =>
      rw [bind_of_error hlook]
      rfl
  rw [hfar, hstays] at hnext
  rw [hleft]
  exact hnext

theorem Furthest.passed {n : Nat} (h : Furthest t d index s) (hn : n ≤ s.window.size)
    (c? : Option Char) :
    Furthest t d (index + n) (passed n c? { s with window := Fifo.dropHeads n s.window }) := by
  obtain ⟨line, column, heq⟩ := exists_passed n c? { s with window := Fifo.dropHeads n s.window }
  rw [heq]
  refine ⟨h.read, fun hd => ?_, h.beyond⟩
  obtain ⟨hended, hsize⟩ := h.within hd
  have hcount : (Fifo.dropHeads n s.window).size = s.window.size - n := Fifo.count_dropHeads n s.window
  exact ⟨hended, by simp only [hcount]; omega⟩

theorem AtSpot.furthest_accept (h : AtSpot capacity (visible t) p s) (hf : Furthest t d p.index s)
    (n : Count) : Furthest t (max d ((Request.accept n).farthest capacity p))
      ((Request.accept n).runAt capacity (visible t) p).2.index ((Request.accept n).run s).2 := by
  obtain ⟨k, hplace⟩ := h.place
  have hle := h.index_le
  have hlength : ((visible t).drop p.index).length = (visible t).length - p.index := List.length_drop
  simp only [Request.run, Request.runAt, Request.farthest]
  by_cases hn : 1 ≤ n.value ∧ n.value ≤ capacity
  · have hwindow : n.value ≤ s.window.capacity := by
      rw [h.capacity]
      exact hn.2
    obtain ⟨v, j, hrefilled, hplace', -, hj⟩ := hplace.refilled hwindow
    have hmore := hf.refilled hplace hn.1 hwindow hrefilled
    have hsize := hplace'.size
    rw [if_pos hn, if_neg (by omega), accept_of_refilled hrefilled, takeOut_eq]
    by_cases hbad : n.value ≤ 0 ∨ ((visible t).length - p.index + 1 : Nat) < n.value
    · have hpop : v.window.popMany n = _ := hplace'.window.popMany_of_invalid (by
        rw [hplace'.length_window]
        have hj' := hplace'.le
        omega)
      rw [if_pos hbad, hpop]
      exact hmore
    · obtain ⟨m, hm⟩ : ∃ m : Nat, n.value = m + 1 := ⟨n.value.toNat - 1, by omega⟩
      have hnat : n.value.toNat = m + 1 := by omega
      have hitem : ((ahead ((visible t).drop p.index)).take j)[m]? =
          some ((visible t).drop p.index)[m]? := by
        rw [List.getElem?_take_of_lt (by omega), getElem?_ahead (by omega)]
      have hpop : v.window.popMany n = _ := hplace'.window.popMany hitem hm
      rw [hnat] at hmore
      rw [if_neg hbad, hpop, hnat, ← Nat.add_assoc, Nat.add_sub_cancel, List.getElem?_drop]
      have hpassed := hmore.passed (n := m + 1) (by omega) (visible t)[p.index + m]?
      cases hlast : (visible t)[p.index + m]? with
      | some c =>
        rw [hlast] at hpassed
        simp only [Spot.index_pass]
        exact hpassed
      | none =>
        have hover := List.getElem?_eq_none_iff.1 hlast
        exact hmore.of_beyond (by omega) (by omega) rfl rfl
  · rw [if_neg hn, Nat.max_zero]
    by_cases houtside : capacity < n.value
    · rw [if_pos houtside, hplace.accept_of_outside (by rwa [h.capacity])]
      exact hf
    · have hpop : s.window.popMany n = _ := hplace.window.popMany_of_invalid (.inl (by omega))
      rw [if_neg houtside, if_pos (.inl (by omega)), accept_eq, if_neg (by omega), takeOut_eq, hpop]
      exact hf

theorem AtSpot.furthest_run (h : AtSpot capacity (visible t) p s) (hf : Furthest t d p.index s)
    (q : Request) : Furthest t (max d (q.farthest capacity p)) (q.runAt capacity (visible t) p).2.index
      (q.run s).2 := by
  cases q with
  | lookAhead n => exact h.furthest_lookAhead hf n
  | accept n => exact h.furthest_accept hf n
  | isEnd => exact h.furthest_isEnd hf

theorem AtSpot.readUpTo_after (h : AtSpot capacity (visible t) p s) (hf : Furthest t d p.index s)
    (qs : List Request) :
    (Source.after qs s).stream.ReadUpTo t (max d (farthest capacity (visible t) qs p)) := by
  -- along the requests: none looks less far than those before it have
  induction qs generalizing d p s with
  | nil =>
    rw [farthest, Nat.max_zero]
    exact hf.read
  | cons q qs ih =>
    have hread := ih (h.run q).2 (h.furthest_run hf q)
    rwa [Nat.max_assoc] at hread

end Sessions

/-- After any requests a text has been read up to the farthest visible character that one of them
asks for, or to its end with one read that reports it, where the text has fewer characters. Where a
request asks from is told by the characters taken before it. -/
theorem readUpTo_ofStream (t : Text) (name : Option Text) (config : Config) {size : Nat}
    (hsize : 1 ≤ size) :
    match ofStream (.memory { text := t }) name (.int size) config with
    | .error _ => Fifo.memoryLimit ≤ size
    | .ok s => ∀ qs, (after qs s).stream.ReadUpTo t (farthest size (visible t) qs {}) ∧
        (after qs s).unaccepted = (visible t).drop (Request.after size (visible t) qs {}).index := by
  have hdelivers : (CharStream.memory { text := t }).Delivers t := ⟨rfl, fun _ _ => rfl⟩
  rw [ofStream_int _ name config hsize]
  obtain ⟨fault, hrefused, hmemory⟩ | hgiven := Fifo.ofValue_natCast (α := Option Char) hsize
  · rw [hrefused]
    exact hmemory
  · rw [hgiven]
    intro qs
    have hstart := atSpot_start hdelivers (name.getD "<stream>".toList) hsize
    have hunread : Furthest t 0 0
        { stream := .memory { text := t }, name := name.getD "<stream>".toList,
          window := Fifo.ofCapacity size } :=
      ⟨⟨0, rfl, fun _ => Input.reaches_zero t, fun hlt => by omega⟩, fun _ => ⟨rfl, rfl⟩,
        fun hlt => by omega⟩
    have hread := hstart.readUpTo_after hunread qs
    rw [Nat.zero_max] at hread
    exact ⟨hread, (hstart.after qs).unaccepted⟩

theorem readUpTo_ofStream_returnsBehind :
    ∃ s, ofStream (.memory { text := "a\rb\r\rc".toList }) none (.int 2) {} = .ok s ∧
      (after [.lookAhead (1 : Nat), .accept (1 : Nat), .isEnd] s).stream.ReadUpTo "a\rb\r\rc".toList 2 ∧
      (after [.lookAhead (1 : Nat), .accept (1 : Nat), .isEnd] s).stream.reads = 3 := by
  have hread := readUpTo_ofStream "a\rb\r\rc".toList none {} (by decide : 1 ≤ 2)
  exact ⟨_, rfl, (hread _).1, by cbv⟩

end Source
end LineLexer
