import LineLexer.Proofs.Tiling
import Mathlib

/-!
# Scanning lines after lines

The scan of a text that follows whole lines is the scan of those lines and
then that of the text, with all places further down by the number of the
lines: nothing is carried over from the lines but their number. The same holds
for a lexical error in the text.
-/

namespace LineLexer

open Input (withFinalNewline)

theorem Text.withFinalNewline_append {a : Text} (ha : a.WholeLines) (b : Text) :
    withFinalNewline (a ++ b) = a ++ withFinalNewline b := by
  rcases ha with rfl | ha
  · rfl
  · exact Input.withFinalNewline_append ha b

theorem Text.WholeLines.withFinalNewline {a : Text} (ha : a.WholeLines) :
    Input.withFinalNewline a = a := by
  simpa using Text.withFinalNewline_append ha []

namespace Location

theorem offset_down (l : Location) (columns : Int) (lines : Nat) :
    (l.down lines).offset columns = (l.offset columns).down lines := rfl

theorem between_append {a u v : Text} (ha : a.WholeLines) (huv : u ++ v ≠ []) (file : Text) :
    between file (a ++ u) v = (between file u v).down (a.count '\n') := by
  by_cases hv : v = []
  · have hu : u ≠ [] := by
      intro hu
      exact huv (by rw [hu, hv]; rfl)
    simp only [between, hv, List.isEmpty_nil, if_true, List.dropLast_append_of_ne_nil hu]
    exact behind_append_of_wholeLines ha file _
  · rw [between_of_ne_nil hv, between_of_ne_nil hv]
    exact behind_append_of_wholeLines ha file u

end Location

theorem locate_down {a : Text} (ha : a.WholeLines) (file before : Text) (ps : List Piece) :
    locate file (a ++ before) ps = (locate file before ps).map (·.down (a.count '\n')) := by
  induction ps generalizing before with
  | nil => rfl
  | cons p ps ih =>
    have hbehind := Location.behind_append_of_wholeLines ha file before
    have hfragments : p.fragments file (a ++ before) =
        (p.fragments file before).map (·.down (a.count '\n')) := by
      simp [Piece.fragments, hbehind, Fragment.down, Location.offset_down]
    simp [locate, hfragments, ih]

namespace Scan

variable {s : Scan} {d : Delimiters} {fsA fsB fsAB : FileSystem} {file a b : Text}
  {found : List Fragment}

/-- A scan goes on behind whole lines as it goes in the text that follows them by itself. -/
theorem run_append (hA : DecodesTo fsA file s.config a) (hB : DecodesTo fsB file s.config b)
    (hAB : DecodesTo fsAB file s.config (a ++ b)) (hd : s.config.Delimits d)
    (ha : a.WholeLines) (hrun : (s.run fsA file).result = .ok found) :
    (∀ more, (s.run fsB file).result = .ok more →
      (s.run fsAB file).result = .ok (found ++ more.map (·.down (a.count '\n')))) ∧
    ∀ kind location doing, (s.run fsB file).result = .error (.lexical kind location doing) →
      (s.run fsAB file).result =
        .error (.lexical kind (location.down (a.count '\n')) doing) := by
  obtain ⟨ps, hchain, rfl⟩ := chain_of_run hA hd hrun
  obtain ⟨qs, v, hchain', hv, hresult⟩ := exists_chain hB hd
  rw [ha.withFinalNewline] at hchain
  have htext : Piece.textOf ps = a := by
    simpa using hchain.text_eq fun _ _ hp => (prefix_of_cut hp).1
  have hboth := (chain_append ha hchain (withFinalNewline b)).append hchain'
  rw [← Text.withFinalNewline_append ha] at hboth
  have hall := run_of_chain hAB hd hboth hv
  rw [hall, hresult]
  unfold verdict
  cases hcut : s.cut d v with
  | piece p =>
    rw [hcut] at hv
    exact hv.elim
  | nothing =>
    refine ⟨?_, fun _ _ _ h => (by cases h)⟩
    intro more hmore
    obtain rfl := Except.ok.inj hmore
    have hlocate := locate_down ha file [] qs
    rw [List.append_nil] at hlocate
    simp [locate_append, htext, hlocate]
  | failure f =>
    refine ⟨fun _ h => (by cases h), ?_⟩
    intro kind location doing hfault
    have hne : v ≠ [] := by
      intro hnil
      rw [hnil] at hcut
      cases hcut
    cases f with
    | refused fault =>
      obtain ⟨f, rfl⟩ := cut_eq_refused hcut
      cases Except.error.inj hfault
    | lexical kind' n =>
      have hbetween := Location.between_append ha (u := Piece.textOf qs ++ v.take n)
        (v := v.drop n) (by simp [hne]) file
      simp only [Halt.fault, Except.error.injEq, Fault.lexical.injEq] at hfault ⊢
      obtain ⟨rfl, rfl, rfl⟩ := hfault
      rw [Piece.textOf_append, htext, List.append_assoc, hbetween]
      exact ⟨rfl, rfl, rfl⟩

theorem run_append_twoLines :
    ((⟨{}, false, []⟩ : Scan).run (({} : FileSystem).addFile ['f'] [0x61, 0x0A, 0x62]) ['f']).result =
      .ok [⟨⟨['f'], 1, 1⟩, ['a']⟩, ⟨⟨['f'], 2, 1⟩, ['b']⟩] := by
  let s : Scan := ⟨{}, false, []⟩
  have hA : DecodesTo (({} : FileSystem).addFile ['f'] [0x61, 0x0A]) ['f'] s.config ['a', '\n'] :=
    decodesTo_of_chunk ['a', '\n'] [.openingPlain ['f'] 8192] (by cbv) (by cbv)
  have hB : DecodesTo (({} : FileSystem).addFile ['f'] [0x62]) ['f'] s.config ['b'] :=
    decodesTo_of_chunk ['b'] [.openingPlain ['f'] 8192] (by cbv) (by cbv)
  have hAB : DecodesTo (({} : FileSystem).addFile ['f'] [0x61, 0x0A, 0x62]) ['f'] s.config
      (['a', '\n'] ++ ['b']) :=
    decodesTo_of_chunk ['a', '\n', 'b'] [.openingPlain ['f'] 8192] (by cbv) (by cbv)
  have hd : s.config.Delimits .usual := Delimiters.delimits_usual
  have hchainA : Chain (s.cut .usual) (withFinalNewline ['a', '\n'])
      [⟨['a'], [(0, ['a'])]⟩, ⟨['\n'], []⟩] [] := .cons rfl (.cons rfl (.nil []))
  have hchainB : Chain (s.cut .usual) (withFinalNewline ['b'])
      [⟨['b'], [(0, ['b'])]⟩, ⟨['\n'], []⟩] [] := .cons rfl (.cons rfl (.nil []))
  exact (run_append hA hB hAB hd (.inr rfl) (run_of_chain hA hd hchainA trivial)).1 _
    (run_of_chain hB hd hchainB trivial)

end Scan
end LineLexer
