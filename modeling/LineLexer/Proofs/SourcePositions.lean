import LineLexer.Proofs.Position
import LineLexer.Proofs.SourceRefinement
import Mathlib

/-!
# Positions told by a source

A source tells its position from the last character that a request took and
from how many it took. As long as no newline is hidden in front of that one,
the position is the place behind the text taken so far. How the characters
were grouped, how far ahead was looked and which carriage returns were dropped
leaves no trace in it.
-/

namespace LineLexer

theorem Fifo.ofValue_ok {α : Type} {v : Json} {f : Fifo α} (h : ofValue v = .ok f) :
    ∃ capacity givenAsTruth, 0 < capacity ∧ f = { capacity, givenAsTruth } := by
  cases v with
  | bool b =>
    cases b with
    | false => cases h
    | true => exact ⟨1, true, Nat.one_pos, (Except.ok.inj h).symm⟩
  | int n =>
    by_cases hn : 0 < n
    · rw [ofValue_int hn] at h
      split at h
      · cases h
      · split at h
        · cases h
        · exact ⟨n.toNat, false, by omega, (Except.ok.inj h).symm⟩
    · have hbelow : (Json.int n).isBelow false 0 = .ok true := by
        simp [Json.isBelow, Json.isBelow?, Json.isBelow?.compare, Int.not_lt.1 hn]
      unfold ofValue at h
      rw [hbelow] at h
      cases h
  | float x =>
    obtain ⟨below, hbelow⟩ : ∃ below, (Json.float x).isBelow false 0 = .ok below := ⟨_, rfl⟩
    unfold ofValue at h
    rw [hbelow] at h
    cases below <;> cases h
  | null => cases h
  | text _ => cases h
  | list _ => cases h
  | object _ => cases h

namespace Source

open Input (visible)
open Text (lineBehind columnBehind)

/-- The index behind a text, with the line and the column there. -/
def Spot.behind (before : Text) : Spot := ⟨before.length, lineBehind before, columnBehind before⟩

theorem Spot.pass_behind {u : Text} {n : Nat} {c : Char} (hlast : u[n]? = some c)
    (hline : '\n' ∉ u.take n) (before : Text) :
    (behind before).pass (n + 1) c = behind (before ++ u.take (n + 1)) := by
  have htake : u.take (n + 1) = u.take n ++ [c] := by
    rw [List.take_add_one, hlast]
    rfl
  have hlt := (List.getElem?_eq_some_iff.1 hlast).1
  have hlength : (u.take (n + 1)).length = n + 1 := List.length_take_of_le hlt
  have hindex : (before ++ u.take (n + 1)).length = before.length + (n + 1) := by
    rw [List.length_append, hlength]
  by_cases hc : c = '\n'
  · subst hc
    have hcount : (u.take (n + 1)).count '\n' = 1 := by
      rw [htake, List.count_append, List.count_eq_zero.2 hline]
      rfl
    have hdown : lineBehind (before ++ u.take (n + 1)) = lineBehind before + 1 := by
      rw [lineBehind, List.count_append, hcount]
      rfl
    have hleft : columnBehind (before ++ u.take (n + 1)) = 1 := by
      rw [htake, ← List.append_assoc, Text.columnBehind_concat_newline]
    rw [pass, if_pos rfl, behind, behind, hindex, hdown, hleft]
  · have hnone : '\n' ∉ u.take (n + 1) := by
      rw [htake, List.mem_append, List.mem_singleton]
      rintro (h | h)
      · exact hline h
      · exact hc h.symm
    have hsame : lineBehind (before ++ u.take (n + 1)) = lineBehind before := by
      rw [lineBehind, List.count_append, List.count_eq_zero.2 hnone]
      rfl
    have hright : columnBehind (before ++ u.take (n + 1)) = columnBehind before + (n + 1) := by
      rw [Text.columnBehind_append_line hnone, hlength]
    rw [pass, if_neg hc, behind, behind, hindex, hsame, hright]

namespace Request

def taken (q : Request) (s : Source) : Text :=
  match q, (q.run s).1 with
  | accept n, .char _ => s.unaccepted.take n.value.toNat
  | _, _ => []

def HidesNone (q : Request) (s : Source) : Prop :=
  match q, (q.run s).1 with
  | accept n, .char c? =>
    '\n' ∉ s.unaccepted.take (n.value.toNat - 1) ∧ (c? = none → s.unaccepted = [])
  | _, _ => True

end Request

def accepted : List Request → Source → Text
  | [], _ => []
  | q :: qs, s => q.taken s ++ accepted qs (q.run s).2

def HideNone : List Request → Source → Prop
  | [], _ => True
  | q :: qs, s => q.HidesNone s ∧ HideNone qs (q.run s).2

section Places

variable {capacity : Nat} {text before : Text} {s : Source}

/-- A text has been taken off the front of the visible one, and the source tells the place behind
it. -/
structure Behind (capacity : Nat) (text before : Text) (s : Source) : Prop where
  spot : AtSpot capacity text (.behind before) s
  taken : before <+: text

theorem Behind.append_unaccepted (h : Behind capacity text before s) :
    before ++ s.unaccepted = text := by
  rw [h.spot.unaccepted]
  exact List.prefix_iff_eq_append.1 h.taken

theorem taken_prefix (q : Request) (s : Source) : q.taken s <+: s.unaccepted := by
  unfold Request.taken
  split
  · exact List.take_prefix _ _
  · exact List.nil_prefix

inductive Accepts (capacity : Nat) (text : Text) (p : Spot) (n : Count) (s : Source) :
    Reply × Source → Prop
  | refused (reply : Reply) (t : Source) (hreply : ∀ c?, reply ≠ .char c?)
      (hspot : AtSpot capacity text p t) : Accepts capacity text p n s (reply, t)
  | char (m : Nat) (c : Char) (t : Source) (hn : n.value.toNat = m + 1)
      (hlast : s.unaccepted[m]? = some c) (hspot : AtSpot capacity text (p.pass (m + 1) c) t) :
      Accepts capacity text p n s (.char (some c), t)
  | atEnd (t : Source) (hn : s.unaccepted.length < n.value.toNat)
      (hspot : AtSpot capacity text { p with index := text.length } t) :
      Accepts capacity text p n s (.char none, t)

theorem AtSpot.accepts {p : Spot} (h : AtSpot capacity text p s) (n : Count) :
    Accepts capacity text p n s ((Request.accept n).run s) := by
  obtain ⟨hreply, hspot⟩ := h.accept n
  rw [← Prod.mk.eta (p := (Request.accept n).run s), hreply]
  generalize ((Request.accept n).run s).2 = t at hspot
  by_cases houtside : capacity < n.value
  · have hat : (Request.accept n).runAt capacity text p = (.outsideWindow (n.value - 1 : Int), p) :=
      if_pos houtside
    rw [hat] at hspot ⊢
    exact .refused _ t nofun hspot
  by_cases hbad : n.value ≤ 0 ∨ (text.length - p.index + 1 : Nat) < n.value
  · have hat : (Request.accept n).runAt capacity text p = (.badCount n, p) :=
      (if_neg houtside).trans (if_pos hbad)
    rw [hat] at hspot ⊢
    exact .refused _ t nofun hspot
  obtain ⟨m, hm⟩ : ∃ m : Nat, n.value.toNat = m + 1 := ⟨n.value.toNat - 1, by omega⟩
  have hitem : text[p.index + n.value.toNat - 1]? = s.unaccepted[m]? := by
    rw [h.unaccepted, List.getElem?_drop, hm, ← Nat.add_assoc, Nat.add_sub_cancel]
  cases hlast : s.unaccepted[m]? with
  | some c =>
    have hat : (Request.accept n).runAt capacity text p = (.char (some c), p.pass (m + 1) c) := by
      rw [← hm]
      simp only [Request.runAt, if_neg houtside, if_neg hbad, hitem, hlast]
    rw [hat] at hspot ⊢
    exact .char m c t hm hlast hspot
  | none =>
    have hat : (Request.accept n).runAt capacity text p = (.char none, { p with index := text.length }) := by
      simp only [Request.runAt, if_neg houtside, if_neg hbad, hitem, hlast]
    have hall := List.getElem?_eq_none_iff.1 hlast
    rw [hat] at hspot ⊢
    exact .atEnd t (by omega) hspot

theorem AtSpot.stands {p : Spot} (h : AtSpot capacity text p s) {q : Request}
    (hq : ∀ n, q ≠ .accept n) : AtSpot capacity text p (q.run s).2 := by
  have hspot := (h.run q).2
  cases q with
  | lookAhead n =>
    have hstill : ((Request.lookAhead n).runAt capacity text p).2 = p := by
      simp only [Request.runAt]
      split <;> rfl
    rwa [hstill] at hspot
  | accept n => exact absurd rfl (hq n)
  | isEnd => exact hspot

theorem Behind.run (h : Behind capacity text before s) (q : Request) (hnone : q.HidesNone s) :
    Behind capacity text (before ++ q.taken s) (q.run s).2 := by
  have htext := h.append_unaccepted
  have hprefix : before ++ q.taken s <+: text := by
    rw [← htext, List.prefix_append_right_inj]
    exact taken_prefix q s
  refine ⟨?_, hprefix⟩
  cases q with
  | lookAhead n =>
    rw [show (Request.lookAhead n).taken s = [] from rfl, List.append_nil]
    exact h.spot.stands nofun
  | isEnd =>
    rw [show Request.isEnd.taken s = [] from rfl, List.append_nil]
    exact h.spot.stands nofun
  | accept n =>
    have hends := h.spot.accepts n
    unfold Request.HidesNone at hnone
    unfold Request.taken
    generalize (Request.accept n).run s = x at hends hnone
    cases hends with
    | refused reply t hreply hspot =>
      cases reply with
      | char c? => exact absurd rfl (hreply c?)
      | _ => rwa [List.append_nil]
    | char m c t hn hlast hspot =>
      have hline : '\n' ∉ s.unaccepted.take (n.value.toNat - 1) := hnone.1
      rw [hn] at hline
      show AtSpot capacity text (.behind (before ++ s.unaccepted.take n.value.toNat)) t
      rwa [hn, ← Spot.pass_behind hlast hline before]
    | atEnd t hn hspot =>
      have hend : s.unaccepted = [] := hnone.2 rfl
      have hall : before = text := by rw [← htext, hend, List.append_nil]
      show AtSpot capacity text (.behind (before ++ s.unaccepted.take n.value.toNat)) t
      rw [hend, List.take_nil, List.append_nil, hall]
      rwa [hall] at hspot

theorem Behind.after (h : Behind capacity text before s) {qs : List Request}
    (hnone : HideNone qs s) : Behind capacity text (before ++ accepted qs s) (after qs s) := by
  induction qs generalizing before s with
  | nil => rwa [accepted, List.append_nil]
  | cons q qs ih =>
    obtain ⟨hfirst, hrest⟩ := hnone
    rw [accepted, ← List.append_assoc]
    exact ih (h.run q hfirst) hrest

end Places

theorem ofStream_eq (stream : Input.CharStream) (name : Option Text) (lookahead : Json)
    (config : Config) : ofStream stream name lookahead config =
      (Fifo.ofValue (if lookahead.isTruthy then lookahead else config.lookahead)).map
        fun window => { stream, name := name.getD "<stream>".toList, window } := by
  show (Fifo.ofValue (if lookahead.isTruthy then lookahead else config.lookahead) >>= _ :
    Except Config.Fault Source) = _
  cases (Fifo.ofValue (if lookahead.isTruthy then lookahead else config.lookahead) :
    Except Config.Fault (Fifo (Option Char))) <;> rfl

theorem behind_start {stream : Input.CharStream} {t : Text} (h : stream.Delivers t)
    {name : Option Text} {lookahead : Json} {config : Config} {s : Source}
    (hopen : ofStream stream name lookahead config = .ok s) :
    Behind s.window.capacity (visible t) [] s := by
  rw [ofStream_eq] at hopen
  cases hwindow : Fifo.ofValue (if lookahead.isTruthy then lookahead else config.lookahead) with
  | error fault =>
    rw [hwindow] at hopen
    cases hopen
  | ok window =>
    rw [hwindow] at hopen
    obtain ⟨capacity, givenAsTruth, hpos, rfl⟩ := Fifo.ofValue_ok hwindow
    cases hopen
    have hplace : At (visible t) 0 { stream, name := name.getD "<stream>".toList,
                                     window := { capacity, givenAsTruth } } :=
      ⟨Nat.zero_le _, Fifo.holds_nil capacity hpos givenAsTruth,
        fun _ => ⟨Nat.zero_le _, t, h, rfl⟩, nofun⟩
    exact ⟨⟨hpos, rfl, Nat.zero_le _, ⟨0, hplace⟩, rfl, rfl⟩, List.nil_prefix⟩

/-- Over a stream that does not fail, requests that hide no newline leave a source at the line and
the column behind what they have taken of the visible text. -/
theorem position_ofStream {stream : Input.CharStream} {t : Text} (h : stream.Delivers t)
    {name : Option Text} {lookahead : Json} {config : Config} {s : Source}
    (hopen : ofStream stream name lookahead config = .ok s) {qs : List Request}
    (hnone : HideNone qs s) :
    accepted qs s ++ (after qs s).unaccepted = visible t ∧
      (after qs s).line = lineBehind (accepted qs s) ∧
      (after qs s).column = columnBehind (accepted qs s) := by
  have hbehind := (behind_start h hopen).after hnone
  exact ⟨hbehind.append_unaccepted, hbehind.spot.line, hbehind.spot.column⟩

theorem position_ofStream_nextLine :
    ∃ s, ofStream (.memory { text := "a\r\nb".toList }) none (.int 2) {} = .ok s ∧
      HideNone [.accept (2 : Nat), .isEnd, .accept (1 : Nat), .accept (1 : Nat)] s ∧
      (after [.accept (2 : Nat), .isEnd, .accept (1 : Nat), .accept (1 : Nat)] s).line = 2 ∧
      (after [.accept (2 : Nat), .isEnd, .accept (1 : Nat), .accept (1 : Nat)] s).column = 2 := by
  have hdelivers : (Input.CharStream.memory { text := "a\r\nb".toList }).Delivers "a\r\nb".toList :=
    ⟨rfl, fun _ _ => rfl⟩
  obtain ⟨s, hopen, hnone, htaken⟩ : ∃ s,
      ofStream (.memory { text := "a\r\nb".toList }) none (.int 2) {} = .ok s ∧
      HideNone [.accept (2 : Nat), .isEnd, .accept (1 : Nat), .accept (1 : Nat)] s ∧
      accepted [.accept (2 : Nat), .isEnd, .accept (1 : Nat), .accept (1 : Nat)] s =
        "a\nb".toList :=
    ⟨_, rfl, ⟨by cbv; exact ⟨(by decide : '\n' ∉ ['a']), fun h => absurd h (by simp)⟩, trivial,
      by cbv; exact ⟨List.not_mem_nil, fun h => absurd h (by simp)⟩,
      by cbv; exact ⟨List.not_mem_nil, fun _ => rfl⟩, trivial⟩, by cbv⟩
  obtain ⟨-, hline, hcolumn⟩ := position_ofStream hdelivers hopen hnone
  rw [htaken] at hline hcolumn
  exact ⟨s, hopen, hnone, hline, hcolumn⟩

end Source
end LineLexer
