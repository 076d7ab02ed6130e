import LineLexer.Proofs.ErrorTexts
import LineLexer.Proofs.Listing
import LineLexer.Proofs.ReadFailures
import LineLexer.Proofs.ScanPlaces
import LineLexer.Proofs.ScanSegmentation
import Mathlib

/-!
# What a run prints

A scan that ends is listed, and its listing reads back as what was found. Where an error ends it,
the error is told in place of the fragments, and nothing in its words is a line of theirs: a tab
stands there at most within the name of the file, and a line of a fragment has one behind it.
-/

namespace LineLexer

theorem tabless_decimal (n : Int) : '\t' ∉ Location.decimal n :=
  Location.notMem_decimal (by decide) (by decide) n

theorem LexicalKind.tabless_text (kind : LexicalKind) (doing : Option Text) :
    Tabless (kind.text doing) := by
  have hwords : Tabless kind.words := by cases kind <;> decide
  unfold text
  split
  · exact hwords
  · exact hwords
  · rename_i s _
    exact ((hwords.append (by decide : Tabless " while matching '")).append
      (tabless_ofList s.notMem_escape.2)).append (by decide : Tabless "'")

theorem toList_errorAt (location : Location) (words : String) :
    (errorAt location words).toList = location.toText ++ ": ERROR ".toList ++ words.toList := by
  show (String.ofList location.toText ++ ": ERROR " ++ words).toList = _
  simp only [String.toList_append, String.toList_ofList]

def Fault.IsTold : Fault → Prop
  | lexical .. | fatal .. => True
  | input cause => cause.isReported = true
  | _ => False

def Fault.printed : Fault → String
  | lexical kind location doing => errorAt location (kind.text doing) ++ "\n"
  | input cause => if cause.isReported then s!"Error reading file: {cause.message}\n" else ""
  | _ => ""

namespace CommandLine

/-- No tab is printed but in the name of a file that stands in front. -/
def TabsIn (file output : Text) : Prop := ∃ rest, '\t' ∉ rest ∧ (output = rest ∨ output = file ++ rest)

theorem TabsIn.noLine {file output : Text} (h : TabsIn file output) {f : Fragment}
    (hf : f.location.file = file ∨ '\t' ∉ file) : ¬(fragmentLine f).toList <:+: output := by
  rintro ⟨before, after, hinfix⟩
  obtain ⟨rest, hrest, houtput⟩ := h
  have htab : output = (before ++ f.location.toText) ++ '\t' :: (f.text.escape ++ '\n' :: after) := by
    rw [← hinfix, toList_fragmentLine, lineText]
    simp
  have hmem : '\t' ∈ output := by simp [htab]
  rcases houtput with rfl | rfl
  · exact hrest hmem
  · rcases hf with rfl | hplain
    · have hle : f.location.file.length ≤ (before ++ f.location.toText).length := by
        simp [Location.toText]
        omega
      have hdrop := congrArg (List.drop f.location.file.length) htab
      rw [List.drop_left, List.drop_append_of_le_length hle] at hdrop
      exact hrest (by simp [hdrop])
    · exact (List.mem_append.1 hmem).elim hplain hrest

theorem tabsIn_printed {file : Text} {fault : Fault} (hplaced : fault.Placed file ∨ fault.ToldPlainly)
    (htold : fault.IsTold) : TabsIn file fault.printed.toList := by
  cases fault with
  | lexical kind location doing =>
    obtain rfl : location.file = file := hplaced.resolve_right id
    refine ⟨(':' :: Location.decimal location.line ++ ':' :: Location.decimal location.column) ++
      (": ERROR " ++ kind.text doing ++ "\n").toList, ?_, .inr ?_⟩
    · have hwords : Tabless (": ERROR " ++ kind.text doing ++ "\n") :=
        ((by decide : Tabless ": ERROR ").append (kind.tabless_text doing)).append
          (by decide : Tabless "\n")
      rw [List.mem_append, not_or]
      exact ⟨by simp [tabless_decimal], hwords⟩
    · change (errorAt location (kind.text doing) ++ "\n").toList = _
      rw [String.toList_append, toList_errorAt]
      simp only [String.toList_append, Location.toText, List.append_assoc, List.cons_append]
  | fatal => exact ⟨[], List.not_mem_nil, .inl rfl⟩
  | input cause =>
    have hreported : cause.isReported = true := htold
    have hplain : Tabless cause.message := by
      rcases hplaced with hunreported | hplainly
      · exact absurd (hreported.symm.trans hunreported) (by decide)
      · exact hplainly hreported
    have hprinted : (Fault.input cause).printed = s!"Error reading file: {cause.message}\n" :=
      if_pos hreported
    rw [hprinted]
    exact ⟨_, ((by decide : Tabless "Error reading file: ").append hplain).append
      (by decide : Tabless "\n"), .inl rfl⟩
  | _ => exact htold.elim

inductive Loads (fs : FileSystem) (o : Options) : Config → Prop
  | usual (h : o.config = none ∨ o.config = some []) : Loads fs o {}
  | named {c : Char} {name : Text} {config : Config} (h : o.config = some (c :: name))
      (hfile : Config.ofFile fs (c :: name) = .ok config) : Loads fs o config

section Runs

variable {fs : FileSystem} {o : Options} {config : Config}

theorem runWith_of_loads (h : Loads fs o config) : ∃ log, runWith fs o = scanFile fs o config log := by
  unfold runWith
  cases h with
  | usual h =>
    rcases h with h | h
    · exact ⟨_, by rw [h]⟩
    · exact ⟨_, by rw [h]⟩
  | named h hfile => exact ⟨_, by rw [h]; simp only [hfile]; rfl⟩

theorem output_scanFile (fs : FileSystem) (o : Options) (config : Config) (log : List Log.Record) :
    (scanFile fs o config log).output = match ((scanOf fs o config).run fs o.file).result with
    | .ok found => listing found
    | .error fault => fault.printed := by
  unfold scanFile
  simp only
  generalize (scanOf fs o config).run fs o.file = outcome
  cases outcome.result with
  | ok found => rfl
  | error fault =>
    cases fault with
    | input cause => cases hreported : cause.isReported <;> simp [hreported, Fault.printed]
    | _ => rfl

theorem ending_of_told {fault : Fault}
    (h : ((scanOf fs o config).run fs o.file).result = .error fault) (htold : fault.IsTold)
    (log : List Log.Record) : (scanFile fs o config log).ending = .status 1 := by
  rw [ending_scanFile, h]
  cases fault with
  | lexical => rfl
  | fatal => rfl
  | input cause => exact if_pos htold
  | _ => exact htold.elim

theorem placed_or_plainly {fault : Fault} {s : Scan} {file : Text}
    (h : (s.run fs file).result = .error fault) : fault.Placed file ∨ fault.ToldPlainly := by
  have hplaced := s.run_placed fs file
  rw [h] at hplaced
  rcases hplaced with hplaced | ⟨failure, hopened, rfl⟩
  · exact .inl hplaced
  · exact .inr (Reader.toldPlainly_ofFile hopened)

end Runs

/-- An answer that lists these fragments, line by line, and no others. -/
structure Lists (found : List Fragment) (answer : Answer) : Prop where
  ending : answer.ending = .status 0
  lines : answer.output.toList.splitOn '\n' = found.map lineText ++ [[]]
  back : readListing answer.output.toList = some found
  only : ∀ other, (∀ f ∈ other, '\n' ∉ f.location.file) → listing other = answer.output → other = found

/-- The listing of a run reads back as the fragments of its scan, whatever their texts are. An error
that is told takes the place of the listing, and nothing of it reads as a line for a place in the
file. Only a name that holds a tab itself can make its words look like a line for another file. -/
theorem run_readBack (fs : FileSystem) {words : List Text} {o : Options} {config : Config}
    (hwords : Options.ofWords words = .ok o) (hloads : Loads fs o config) (hfile : '\n' ∉ o.file) :
    (∀ s : Text, '\n' ∉ s.escape ∧ '\t' ∉ s.escape) ∧ Function.Injective Text.escape ∧
    (∀ f, readLine (lineText f) = some f) ∧
    match ((scanOf fs o config).run fs o.file).result with
    | .ok found => Lists found (run fs words)
    | .error fault => fault.IsTold → (run fs words).ending = .status 1 ∧
        ∀ f, f.location.file = o.file ∨ '\t' ∉ o.file →
          ¬(fragmentLine f).toList <:+: (run fs words).output.toList := by
  refine ⟨Text.notMem_escape, Text.escape_injective, readLine_lineText, ?_⟩
  obtain ⟨log, hrun⟩ := runWith_of_loads hloads
  have hanswer : run fs words = scanFile fs o config log := by
    rw [run, hwords]
    exact hrun
  rw [hanswer]
  have houtput := output_scanFile fs o config log
  cases hresult : ((scanOf fs o config).run fs o.file).result with
  | ok found =>
    rw [hresult] at houtput
    have hplaced := (scanOf fs o config).run_placed fs o.file
    rw [hresult] at hplaced
    have hplain : ∀ f ∈ found, '\n' ∉ f.location.file := fun f hf => by rwa [hplaced f hf]
    refine ⟨by rw [ending_scanFile, hresult], ?_, ?_, fun other hother hsame => ?_⟩
    · rw [houtput, splitOn_listing hplain]
    · rw [houtput, readListing_listing hplain]
    · exact listing_injective hother hplain (hsame.trans houtput)
  | error fault =>
    rw [hresult] at houtput
    refine fun htold => ⟨ending_of_told hresult htold log, fun f hf => ?_⟩
    rw [houtput]
    exact (tabsIn_printed (placed_or_plainly hresult) htold).noLine hf

def tabbed : Options :=
  { file := "a:3\tb".toList, patterns := ["(\\w)".toList], keepComments := true }

def commented : FileSystem :=
  ({} : FileSystem).addFile tabbed.file [0x78, 0x20, 0x2F, 0x2A, 0x5C, 0x0A, 0x09, 0x2A, 0x2F]

def nested : FileSystem := ({} : FileSystem).addFile tabbed.file [0x78, 0x2F, 0x2A, 0x2F, 0x2A]

def tabbedWords : List Text := ["-kp".toList, "(\\w)".toList, "-f".toList, tabbed.file]

theorem run_readBack_comment :
    Lists [⟨⟨tabbed.file, 1, 1⟩, ['x']⟩, ⟨⟨tabbed.file, 1, 3⟩, "/*\\\n\t*/".toList⟩]
      (run commented tabbedWords) ∧
    (run nested tabbedWords).ending = .status 1 ∧
    ¬(fragmentLine ⟨⟨tabbed.file, 1, 1⟩, ['x']⟩).toList <:+: (run nested tabbedWords).output.toList := by
  have hwords : Options.ofWords tabbedWords = .ok tabbed := by cbv
  have hloads (fs : FileSystem) : Loads fs tabbed {} := .usual (.inl rfl)
  have hfile : '\n' ∉ tabbed.file := by decide
  have hcommented : DecodesTo commented tabbed.file {} "x /*\\\n\t*/".toList :=
    decodesTo_of_chunk "x /*\\\n\t*/".toList [.openingPlain tabbed.file 8192] (by cbv) (by cbv)
  have hcut : Chain ((scanOf commented tabbed {}).cut .usual) (Input.withFinalNewline "x /*\\\n\t*/".toList)
      [⟨['x'], [(0, ['x'])]⟩, ⟨[' '], []⟩, ⟨"/*\\\n\t*/".toList, [(0, "/*\\\n\t*/".toList)]⟩,
        ⟨['\n'], []⟩] [] :=
    .cons rfl (.cons rfl (.cons rfl (.cons rfl (.nil []))))
  have hfound : ((scanOf commented tabbed {}).run commented tabbed.file).result =
      .ok [⟨⟨tabbed.file, 1, 1⟩, ['x']⟩, ⟨⟨tabbed.file, 1, 3⟩, "/*\\\n\t*/".toList⟩] :=
    Scan.run_of_chain hcommented Delimiters.delimits_usual hcut trivial
  have hnested : DecodesTo nested tabbed.file {} "x/*/*".toList :=
    decodesTo_of_chunk "x/*/*".toList [.openingPlain tabbed.file 8192] (by cbv) (by cbv)
  have hcut' : Chain ((scanOf nested tabbed {}).cut .usual) (Input.withFinalNewline "x/*/*".toList)
      [⟨['x'], [(0, ['x'])]⟩] "/*/*\n".toList := .cons rfl (.nil _)
  have hfails : ((scanOf nested tabbed {}).run nested tabbed.file).result =
      .error (.lexical .nestedBlockComment ⟨tabbed.file, 1, 4⟩ none) :=
    Scan.run_of_chain hnested Delimiters.delimits_usual hcut' trivial
  have hlists := (run_readBack commented hwords (hloads _) hfile).2.2.2
  rw [hfound] at hlists
  have htells := (run_readBack nested hwords (hloads _) hfile).2.2.2
  rw [hfails] at htells
  obtain ⟨hending, hnone⟩ := htells trivial
  exact ⟨hlists, hending, hnone _ (.inl rfl)⟩

end CommandLine
end LineLexer
