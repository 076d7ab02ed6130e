import LineLexer.CommandLine
import LineLexer.Proofs.FeedFailures
import LineLexer.Proofs.Looking
import LineLexer.Proofs.UsualTokens

/-!
# What becomes of a failing read

The first line is read where a file is opened, and its failure is passed on as it is. Behind a line
a failure is told as fatal, with the file and that line. What compressed data fail with where they
stop short, or where no compressor has written them, is neither told nor caught on its way.
-/

namespace LineLexer

namespace Reader

open Op (Ends EndsIn Asks)

/-- A file is being read, and a read of it can fail only in ways that are reported or in `S`. -/
structure Draws (S : Input.Fault → Prop) (file : Text) (r : Reader) : Prop where
  file : r.file = file
  causes : ∀ s, r.stream = some s → ∀ cause, s.feed.Fails cause → cause.isReported = true ∨ S cause

structure Ready (S : Input.Fault → Prop) (file : Text) (config : Config) (r : Reader) : Prop
    extends Draws S file r where
  config : r.config = config
  isOpen : r.ended = false → r.stream.isSome = true
  place : r.ended = true ∨ r.rest ≠ []

/-- What a failing read is told as, in the state that it leaves. -/
inductive Told (S : Input.Fault → Prop) (file : Text) (s : Reader) : Fault → Prop
  | fatal {cause : Input.Fault} (h : cause.isReported = true) :
      Told S file s (.fatal file s.lineNumber cause)
  | raw {cause : Input.Fault} (h : S cause) : Told S file s (.input cause)

section Lines

variable {S : Input.Fault → Prop} {file : Text} {r : Reader} {s : Input.LineStream}

theorem endsIn_loadLine (h : Draws S file r) (hended : r.ended = false) (hstream : r.stream = some s) :
    EndsIn (Ready S file r.config)
      (fun fault t => Draws S file t ∧
        ∃ cause : Input.Fault, fault = .input cause ∧ (cause.isReported = true ∨ S cause))
      (loadLine r) := by
  cases hread : s.readLine with
  | mk line t =>
    have hfails (cause : Input.Fault) : (line = .error cause → s.feed.Fails cause ∨
        ∃ message, s.broken = some message ∧ cause = .device message) ∧
          (t.feed.Fails cause → s.feed.Fails cause) := Input.LineStream.fails_of_readLine hread
    have hdraws : Draws S file { r with stream := some t } := by
      refine ⟨h.file, ?_⟩
      rintro _ ⟨⟩ cause hmore
      exact h.causes s hstream cause ((hfails cause).2 hmore)
    unfold loadLine
    rw [if_neg (by simp [hended]), hstream]
    simp only [hread]
    match line with
    | .error cause =>
      refine .error _ ⟨hdraws, cause, rfl, ?_⟩
      rcases (hfails cause).1 rfl with hfeed | ⟨message, -, rfl⟩
      · exact h.causes s hstream cause hfeed
      · exact .inl rfl
    | .ok [] =>
      have hkeeps := keeps_endInput { r with stream := some t }
      have hclosed : ({ r with stream := some t } : Reader).endInput.stream = none := by
        rw [endInput_eq rfl]
      refine .ok () ⟨⟨hkeeps.file.trans h.file, ?_⟩, hkeeps.config, ?_, .inl (ended_endInput _)⟩
      · simp [hclosed]
      · simp
    | .ok (c :: line) =>
      refine .ok () ⟨⟨hdraws.file, hdraws.causes⟩, rfl, fun _ => rfl, .inr ?_⟩
      exact mt Input.withFinalNewline_eq_nil.1 (List.cons_ne_nil c line)

theorem endsIn_nextLine (h : Draws S file r) (hended : r.ended = false) (hstream : r.stream = some s) :
    EndsIn (Ready S file r.config) (fun fault t => Draws S file t ∧ Told S file t fault)
      (nextLine r) := by
  have hload := endsIn_loadLine h hended hstream
  unfold nextLine
  generalize loadLine r = x at hload
  cases hload with
  | ok _ h => exact .ok () h
  | @error t _ hfailed =>
    obtain ⟨hdraws, cause, rfl, hcause⟩ := hfailed
    show EndsIn _ _ (report (.input cause) t)
    unfold report
    simp only
    split
    · rename_i hreported
      refine .error _ ⟨⟨hdraws.file, hdraws.causes⟩, ?_⟩
      rw [hdraws.file]
      exact .fatal hreported
    · rename_i hreported
      exact .error _ ⟨hdraws, .raw (hcause.resolve_left hreported)⟩

theorem nextLine_of_closed (hended : r.ended = false) (hclosed : r.stream = none) :
    nextLine r = .error .closedReader r := by
  simp [nextLine, loadLine, report, hended, hclosed]

end Lines

section Sessions

variable {S : Input.Fault → Prop} {file : Text} {r : Reader}

structure Meets (S : Input.Fault → Prop) (file : Text) (fault : Fault) (s : Reader) : Prop where
  draws : Draws S file s
  told : fault.OfReading → Told S file s fault ∨ fault = .closedReader ∧ s.stream = none

theorem Draws.meets_aside (h : Draws S file r) {fault : Fault} (haside : ¬fault.OfReading) :
    Meets S file fault r := ⟨h, fun hreading => absurd hreading haside⟩

theorem Draws.advance (h : Draws S file r) (n : Nat) : Draws S file (r.advance n) := ⟨h.file, h.causes⟩

theorem Draws.endsIn_nextLine (h : Draws S file r) (hended : r.ended = false) :
    EndsIn (Draws S file) (Meets S file) (nextLine r) := by
  cases hstream : r.stream with
  | none =>
    rw [nextLine_of_closed hended hstream]
    exact .error _ ⟨h, fun _ => .inr ⟨rfl, hstream⟩⟩
  | some s =>
    have hline := Reader.endsIn_nextLine h hended hstream
    generalize nextLine r = x at hline
    cases hline with
    | ok _ hready => exact .ok () hready.toDraws
    | error fault hfailed => exact .error fault ⟨hfailed.1, fun _ => .inl hfailed.2⟩

theorem endings_draws : Endings (Draws S file) (Meets S file) where
  moving :=
    { inLine := fun _ n _ _ h => h.advance n
      onward := fun r hended _ h => Draws.endsIn_nextLine (r := r.behindLine) (h.advance _) hended
      nowhere := fun _ _ _ h => h.meets_aside id }
  remembering _ _ h := ⟨h.file, h.causes⟩
  matching _ _ h := ⟨h.file, h.causes⟩
  queueing _ _ h := ⟨h.file, h.causes⟩
  failing r _ _ h := Draws.meets_aside (r := { r with queue := [] }) ⟨h.file, h.causes⟩ id

theorem stable_draws : Stable (Draws S file) where
  next := endings_draws.toSteps.next.preserves fun _ _ h => h.draws
  accept n := (endings_draws.toSteps.accept n).preserves fun _ _ h => h.draws
  remembering _ h := ⟨h.file, h.causes⟩
  matching _ _ h := ⟨h.file, h.causes⟩
  queueing _ _ h := ⟨h.file, h.causes⟩

theorem Draws.close (h : Draws S file r) : Draws S file r.close := by
  unfold Reader.close
  split
  · exact ⟨h.file, nofun⟩
  · exact h

theorem Draws.breakStream (h : Draws S file r) (message : Text) :
    Draws S file (r.breakStream message) := by
  refine ⟨h.file, ?_⟩
  intro s hs cause hfails
  obtain ⟨t, hstream, rfl⟩ := Option.map_eq_some_iff.1 hs
  exact h.causes t hstream cause hfails

theorem Draws.after (h : Draws S file r) (ds : List Demand) : Draws S file (Demand.after ds r) := by
  induction ds generalizing r with
  | nil => exact h
  | cons d ds ih =>
    refine ih (stable_draws.demand (fun _ h => h.close) (fun _ message h => h.breakStream message) ?_ h)
    rintro span text rfl
    rcases after_replace span text r with hsame | ⟨i, j, -, -, -, hedit⟩
    · rwa [hsame]
    · rw [hedit, edit_eq]
      exact ⟨h.file, h.causes⟩

theorem blames_draws : Op.Blames (Draws S file) (Meets S file) :=
  fun _ _ huse h => h.meets_aside huse.notOfReading

theorem endsIn_mayLoad (h : Draws S file r) {d : Demand} (hload : d.MayLoad) :
    EndsIn (Draws S file) (Meets S file) (d.run r) := by
  have hE : Endings (Draws S file) (Meets S file) := endings_draws
  cases d with
  | ask q => exact hload.elim
  | act o =>
    show EndsIn (Draws S file) (Meets S file) (o.run r)
    cases o with
    | acceptFirst patterns counts text save =>
      have hp (p : Pattern.Source) (_ : p ∈ patterns) :
          Asks (Draws S file) (Meets S file) fun _ => p.resolve :=
        blames_draws.asks fun _ => failsAside_resolve p
      exact (hE.acceptFirst hp counts text save r h).map _
    | next | accept | acceptText | take | blockComment | skip =>
      refine hE.toSteps.run blames_draws ?_ ?_ r h
      · trivial
      · trivial
    | _ => exact hload.elim

/-- Whatever is done with a reader, a failure for reading is told. -/
theorem told_demand (h : Draws S file r) (hline : r.NewlineLast) (hfresh : r.Fresh) {d : Demand}
    {fault : Fault} (hfails : d.run.outcome r = .error fault) (hreading : fault.OfReading) :
    Told S file (d.run.after r) fault ∨ fault = .closedReader ∧ (d.run.after r).stream = none := by
  unfold Op.outcome at hfails
  unfold Op.after
  by_cases hload : d.MayLoad
  · have hends := endsIn_mayLoad h hload
    generalize d.run r = x at hends hfails
    cases hends with
    | ok a _ => cases hfails
    | error _ hmeets =>
      cases hfails
      exact hmeets.told hreading
  · by_cases hfile : d.HandlesFile
    · obtain ⟨s, hrun, -⟩ := d.handlesFile_keeps hfile
      rw [hrun] at hfails
      cases hfails
    · have hreads := Demand.readsNothing hline hfresh hload hfile
      generalize d.run r = x at hreads hfails
      cases hreads with
      | ok a _ => cases hfails
      | error _ haside _ =>
        cases hfails
        exact absurd hreading haside

end Sessions

section Scanning

variable {S : Input.Fault → Prop} {file : Text} {config : Config} {r : Reader}

inductive Stops (S : Input.Fault → Prop) (file : Text) : Fault → Reader → Prop
  | lexical {s : Reader} (kind : LexicalKind) (location : Location) (doing : Option Text) :
      Stops S file (.lexical kind location doing) s
  | told {fault : Fault} {s : Reader} (h : Told S file s fault) : Stops S file fault s

theorem Ready.moving : Moving (Ready S file config) (Stops S file) where
  inLine r n _ hlt h := by
    refine ⟨h.toDraws.advance n, h.config, h.isOpen, .inr ?_⟩
    show r.rest.drop n ≠ []
    simpa using hlt
  onward r hended _ h := by
    obtain ⟨s, hs⟩ := Option.isSome_iff_exists.1 (h.isOpen hended)
    have hline := endsIn_nextLine (r := r.behindLine) (h.toDraws.advance _) hended hs
    generalize nextLine r.behindLine = x at hline
    cases hline with
    | ok _ hready => exact .ok () ⟨hready.toDraws, hready.config.trans h.config, hready.isOpen, hready.place⟩
    | error fault hfailed => exact .error fault (.told hfailed.2)
  nowhere r hended hrest h := by
    rcases h.place with hend | hne
    · rw [hended] at hend
      cases hend
    · exact absurd hrest hne

theorem endings_ready : Endings (Ready S file config) (Stops S file) where
  moving := Ready.moving
  remembering _ _ h := ⟨⟨h.file, h.causes⟩, h.config, h.isOpen, h.place⟩
  matching _ _ h := ⟨⟨h.file, h.causes⟩, h.config, h.isOpen, h.place⟩
  queueing _ _ h := ⟨⟨h.file, h.causes⟩, h.config, h.isOpen, h.place⟩
  failing r kind doing _ := .lexical kind r.location doing

theorem Ready.lookAhead_zero (h : Ready S file config r) : ∃ c?, r.lookAhead 0 = .ok c? := by
  unfold lookAhead
  rw [if_neg (by decide)]
  by_cases hended : r.ended = true
  · exact ⟨none, if_pos hended⟩
  · obtain ⟨c, rest, hrest⟩ := List.exists_cons_of_ne_nil (h.place.resolve_left hended)
    exact ⟨some c, by simp [hended, hrest]⟩

theorem asks_lookAhead_zero {E : Fault → Reader → Prop} :
    Asks (Ready S file config) E (lookAhead 0) := by
  intro r h
  obtain ⟨c?, hlook⟩ := h.lookAhead_zero
  rw [hlook]
  exact failsOnly_ok c?

theorem sought_text {E : Fault → Reader → Prop} (t : Text) :
    Sought (Ready S file config) E (.text t) where
  begins := by
    intro r h
    show FailsOnly _ (r.looksAt t)
    unfold looksAt
    split
    · exact (asks_lookAhead_zero r h).bind fun _ => failsOnly_ok _
    · rw [substring_eq]
      exact failsOnly_ok _
  stands := by
    intro r _
    show FailsOnly _ (do return (← r.substring t.length) == t)
    rw [substring_eq]
    exact failsOnly_ok _
  joins keep misuse text := by
    intro r _
    cases keep with
    | true => exact failsOnly_ok _
    | false => exact failsOnly_ok _

theorem delimiting_usual {E : Fault → Reader → Prop} :
    Delimiting (Ready S file config) E {} := ⟨sought_text _, sought_text _, sought_text _⟩

theorem asks_usualPatterns {I : Reader → Prop} {E : Fault → Reader → Prop} :
    ∀ p ∈ Scan.usualPatterns.map (Pattern.Source.written ·) ++ [Scan.singleCharacter],
      Asks I E fun _ => p.resolve := by
  have hok {p : Pattern.Source} {pattern : Pattern} (hp : p.resolve = .ok pattern) :
      Asks I E fun _ => p.resolve := by
    intro r _
    rw [hp]
    exact failsOnly_ok pattern
  simp only [Scan.usualPatterns, List.map_cons, List.map_nil, List.cons_append, List.nil_append,
    List.forall_mem_cons]
  exact ⟨hok Pattern.resolve_name, hok Pattern.resolve_number, hok Pattern.resolve_singleCharacter,
    List.forall_mem_nil _⟩

end Scanning

end Reader

namespace Options

theorem unnamed_cases (word body : Text) :
    unnamed word body = .plain word ∨ unnamed word body = .strange := by
  unfold unnamed
  split
  · exact .inl rfl
  · exact .inr rfl

theorem readWord_cases (word : Text) : readWord word = .ok (.plain word) ∨
    word.head? = some '-' ∧
      (readWord word = .error .usage ∨ ∃ w, readWord word = .ok w ∧ ∀ v, w ≠ .plain v) := by
  unfold readWord
  split
  · exact .inr ⟨rfl, .inr ⟨_, rfl, nofun⟩⟩
  · rename_i name _
    unfold readLong
    simp only
    split
    · exact .inr ⟨rfl, .inr ⟨_, rfl, nofun⟩⟩
    · exact .inr ⟨rfl, .inr ⟨_, rfl, nofun⟩⟩
    · rcases unnamed_cases ('-' :: '-' :: name) ('-' :: (splitValue name).1) with h | h
      · exact .inl (by rw [h])
      · exact .inr ⟨rfl, .inr ⟨_, rfl, by rw [h]; nofun⟩⟩
    · exact .inr ⟨rfl, .inl rfl⟩
  · rename_i c rest _ _
    unfold readShort
    split
    · rcases unnamed_cases ('-' :: c :: rest) (c :: rest) with h | h
      · exact .inl (by rw [h])
      · exact .inr ⟨rfl, .inr ⟨_, rfl, by rw [h]; nofun⟩⟩
    · right
      refine ⟨rfl, .inr ⟨_, rfl, ?_⟩⟩
      split <;> nofun
  · exact .inl rfl

theorem readWords_file (file : Text) : readWords [['-', 'f'], file] =
    (readWord file).map fun w => [.switch .file .nothing, w] := by
  have hswitch : readWord ['-', 'f'] = .ok (.switch .file .nothing) := by rfl
  simp only [readWords, hswitch, bind, Except.bind, pure, Except.pure]
  cases readWord file with
  | error refusal => rfl
  | ok w => cases w <;> rfl

theorem gather_file (w : Word) : Draft.gather {} [.switch .file .nothing, w] =
    match w with
    | .plain file => .ok { file := some file }
    | _ => .error .usage := by
  cases w <;> simp [Draft.gather, Tail.steps, alone, Switch.takesValue, Draft.follow, Draft.set]

theorem ofWords_file (file : Text) : ofWords [['-', 'f'], file] = .ok { file } ∨
    ofWords [['-', 'f'], file] = .error .usage ∧ file.head? = some '-' := by
  unfold ofWords
  rw [readWords_file]
  rcases readWord_cases file with hplain | ⟨hhyphen, hrefused | ⟨w, hw, hnot⟩⟩
  · rw [hplain]
    left
    show (Draft.gather {} [.switch .file .nothing, .plain file] >>= _ : Except Refusal Options) = _
    rw [gather_file]
    rfl
  · rw [hrefused]
    exact .inr ⟨rfl, hhyphen⟩
  · rw [hw]
    right
    show (Draft.gather {} [.switch .file .nothing, w] >>= _ : Except Refusal Options) = _ ∧ _
    rw [gather_file]
    cases w with
    | plain v => exact absurd rfl (hnot v)
    | _ => exact ⟨rfl, hhyphen⟩

end Options

section Files

open Reader (Draws Ready Told Stops)
open Input (Feed)

/-- Failures of the compressed data of a file that nothing on their way reports. -/
def Strays (fs : FileSystem) (file : Text) (cause : Input.Fault) : Prop :=
  ∃ bytes, fs.read file = .ok bytes ∧ ".gz".toList <:+ file ∧ (Feed.ofGzip bytes).Fails cause ∧
    cause.IsStray

/-- What opening a file fails with. -/
def Refuses (fs : FileSystem) (file : Text) (cause : Input.Fault) : Prop :=
  cause.isReported = true ∨ cause = .nulInName ∧ '\x00' ∈ file ∨ Strays fs file cause

variable {fs : FileSystem} {file : Text}

theorem Reader.ready_or_refuses (fs : FileSystem) (file : Text) :
    match ofFile fs file {} with
    | .ok start => Ready (Strays fs file) file {} start
    | .error failure => ∃ cause, failure.fault = .input cause ∧ Refuses fs file cause := by
  obtain ⟨notes, htext⟩ := Opening.text_usual fs file
  unfold ofFile
  cases hread : fs.read file with
  | error cause =>
    rw [hread] at htext
    simp only [htext]
    rcases fs.read_cases file with ⟨_, _, hok, -⟩ | ⟨cause', herror, -, hcause⟩
    · rw [hread] at hok
      cases hok
    · rw [hread] at herror
      cases herror
      exact ⟨cause, rfl, hcause.imp_right .inl⟩
  | ok bytes =>
    rw [hread] at htext
    simp only [htext]
    let first : Reader := { file, config := {}, stream := some { feed := usualFeed file bytes }, notes }
    have hdraws : Draws (Strays fs file) file first := by
      refine ⟨rfl, ?_⟩
      rintro _ ⟨⟩ cause hfails
      exact (fails_usualFeed hfails).imp_right fun h => ⟨bytes, hread, h.2.1, h.2.2, h.1⟩
    have hload := endsIn_loadLine hdraws rfl rfl
    generalize loadLine first = x at hload ⊢
    cases hload with
    | ok _ hready => exact hready
    | error fault hfailed =>
      obtain ⟨-, cause, rfl, hcause⟩ := hfailed
      exact ⟨cause, rfl, hcause.imp_right .inr⟩

inductive ScanFails (fs : FileSystem) (file : Text) : Fault → Prop
  | lexical (kind : LexicalKind) (location : Location) (doing : Option Text) :
      ScanFails fs file (.lexical kind location doing)
  | fatal (line : Int) {cause : Input.Fault} (h : cause.isReported = true) :
      ScanFails fs file (.fatal file line cause)
  | input {cause : Input.Fault} (h : Refuses fs file cause) : ScanFails fs file (.input cause)

theorem Scan.fails_usual {fault : Fault} (h : ((Scan.usual {}).run fs file).result = .error fault) :
    ScanFails fs file fault := by
  have hopen := Reader.ready_or_refuses fs file
  unfold Scan.run at h
  rw [show (Scan.usual {}).config = {} from rfl] at h
  cases hfile : Reader.ofFile fs file {} with
  | error failure =>
    rw [hfile] at h hopen
    obtain ⟨cause, hcause, hrefuses⟩ := hopen
    simp only [Except.error.injEq] at h
    rw [← h, hcause]
    exact .input hrefuses
  | ok start =>
    rw [hfile] at h hopen
    have hE : Endings (Ready (Strays fs file) file {}) (Stops (Strays fs file) file) :=
      Reader.endings_ready
    have hdelimiting (r : Reader) (hr : Ready (Strays fs file) file {} r) :
        Delimiting (Ready (Strays fs file) file {}) (Stops (Strays fs file) file) r.config := by
      rw [hr.config]
      exact Reader.delimiting_usual
    have hends := hE.fragments (s := Scan.usual {}) hdelimiting Reader.delimiting_usual
      Reader.asks_lookAhead_zero Reader.asks_usualPatterns start hopen
    simp only at h
    generalize (Scan.usual {}).fragments start = x at h hends
    cases hends with
    | ok found _ => cases h
    | error fault' hstops =>
      obtain rfl : fault' = fault := Except.error.inj h
      cases hstops with
      | lexical kind location doing => exact .lexical kind location doing
      | told htold =>
        cases htold with
        | fatal hreported => exact .fatal _ hreported
        | raw hstray => exact .input (.inr (.inr hstray))

namespace CommandLine

theorem run_file (fs : FileSystem) (file : Text) :
    run fs ["-f".toList, file] = scanFile fs { file } {} [] ∨
      run fs ["-f".toList, file] = { ending := .refused .usage } ∧ file.head? = some '-' := by
  unfold run
  rw [show "-f".toList = ['-', 'f'] from rfl]
  rcases Options.ofWords_file file with hwords | ⟨hwords, hhyphen⟩
  · rw [hwords]
    exact .inl rfl
  · rw [hwords]
    exact .inr ⟨rfl, hhyphen⟩

/-- How a run on one file with the usual settings can end. -/
inductive EndsFor (fs : FileSystem) (file : Text) : Ending → Prop
  | found : EndsFor fs file (.status 0)
  | told : EndsFor fs file (.status 1)
  | usage (h : file.head? = some '-') : EndsFor fs file (.refused .usage)
  | nulInName (h : '\x00' ∈ file) : EndsFor fs file (.fault (.input .nulInName))
  | stray {cause : Input.Fault} (h : Strays fs file cause) : EndsFor fs file (.fault (.input cause))

theorem scanOf_file (fs : FileSystem) (file : Text) : scanOf fs { file } {} = Scan.usual {} := rfl

theorem ending_scanFile (fs : FileSystem) (o : Options) (config : Config) (log : List Log.Record) :
    (scanFile fs o config log).ending = match ((scanOf fs o config).run fs o.file).result with
    | .ok _ => .status 0
    | .error fault => match fault with
      | .lexical .. | .fatal .. => .status 1
      | .input cause => if cause.isReported then .status 1 else .fault fault
      | _ => .fault fault := by
  unfold scanFile
  simp only
  generalize (scanOf fs o config).run fs o.file = outcome
  cases outcome.result with
  | ok found => rfl
  | error fault =>
    cases fault with
    | input cause => cases hreported : cause.isReported <;> simp [hreported]
    | _ => rfl

theorem endsFor_scanFile (fs : FileSystem) (file : Text) :
    EndsFor fs file (scanFile fs { file } {} []).ending := by
  rw [ending_scanFile, scanOf_file]
  cases hresult : ((Scan.usual {}).run fs file).result with
  | ok found => exact .found
  | error fault =>
    cases Scan.fails_usual hresult with
    | lexical => exact .told
    | fatal => exact .told
    | @input cause hrefuses =>
      cases hreported : cause.isReported with
      | true =>
        simp only [hreported, if_pos]
        exact .told
      | false =>
        simp only [hreported]
        rcases hrefuses with hreported' | ⟨rfl, hnul⟩ | hstray
        · rw [hreported] at hreported'
          cases hreported'
        · exact .nulInName hnul
        · exact .stray hstray

/-- With the usual settings every failure to read a file is told, by the run and by the reader that
is asked for the next line. Only what stray data fail with escapes, and what a name that holds NUL
is refused with. -/
theorem endsFor_run (fs : FileSystem) (file : Text) :
    EndsFor fs file (run fs ["-f".toList, file]).ending ∧
    (∀ fault, ((Scan.usual {}).run fs file).result = .error fault → ScanFails fs file fault) ∧
    match Reader.ofFile fs file {} with
    | .error failure => ∃ cause, failure.fault = .input cause ∧ Refuses fs file cause
    | .ok start => ∀ ds (d : Demand) fault, d.run.outcome (Demand.after ds start) = .error fault →
        fault.OfReading → Told (Strays fs file) file (d.run.after (Demand.after ds start)) fault ∨
          fault = .closedReader ∧ (d.run.after (Demand.after ds start)).stream = none := by
  refine ⟨?_, fun fault => Scan.fails_usual, ?_⟩
  · rcases run_file fs file with hrun | ⟨hrun, hhyphen⟩
    · rw [hrun]
      exact endsFor_scanFile fs file
    · rw [hrun]
      exact .usage hhyphen
  · have hopen := Reader.ready_or_refuses fs file
    cases hfile : Reader.ofFile fs file {} with
    | error failure => rwa [hfile] at hopen
    | ok start =>
      rw [hfile] at hopen
      intro ds d fault hfails hreading
      have hfresh := Demand.fresh_after ds (Reader.fresh_of_none (Reader.cachedRemainder_ofFile hfile))
      exact Reader.told_demand (hopen.toDraws.after ds) ((Reader.newlineLast_ofFile hfile).after ds)
        hfresh hfails hreading

/-- Data that stop behind the header of a compressed file end a run without a word. -/
theorem run_cutShort :
    (run (({} : FileSystem).addFile "a.v.gz".toList [0x1F, 0x8B, 0x08, 0, 0])
      ["-f".toList, "a.v.gz".toList]).ending = .fault (.input .cutShort) := by
  have hscan : ((Scan.usual {}).run (({} : FileSystem).addFile "a.v.gz".toList [0x1F, 0x8B, 0x08, 0, 0])
      "a.v.gz".toList).result = .error (.input .cutShort) := by cbv
  rcases run_file (({} : FileSystem).addFile "a.v.gz".toList [0x1F, 0x8B, 0x08, 0, 0])
      "a.v.gz".toList with hrun | ⟨-, hhyphen⟩
  · rw [hrun, ending_scanFile, scanOf_file, hscan]
    rfl
  · cases hhyphen

end CommandLine

end Files
end LineLexer
