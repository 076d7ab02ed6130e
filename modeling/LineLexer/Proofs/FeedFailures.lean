import LineLexer.Input.Gzip.Members
import LineLexer.Proofs.Endings
import LineLexer.Proofs.LocationKeys
import LineLexer.Reader.Open

/-!
# What reading a file can fail with

Bytes as they stand in a file are read without failure. Compressed data fail as a container does,
or stop short, or hold what no compressor has written; a decoder adds bytes that are no text, and
the line ends add nothing. Lines are taken off whatever comes through, and fail with it.
-/

namespace LineLexer

namespace Input

def Feed.Fails {α : Type} (f : Feed α) (cause : Fault) : Prop :=
  .error cause ∈ f.results ∨ f.last = some cause

section Feeds

variable {cause : Fault} {last : Option Fault}

theorem error_notMem_map_ok {α : Type} (pieces : List α) : .error cause ∉ pieces.map Except.ok := by
  intro hmem
  obtain ⟨piece, -, hpiece⟩ := List.mem_map.1 hmem
  cases hpiece

theorem not_fails_ofBytes (bytes : Bytes) : ¬(Feed.ofBytes bytes).Fails cause := by
  rintro (hresult | hlast)
  · exact error_notMem_map_ok _ hresult
  · cases hlast

theorem fails_cons {α : Type} {result : Except Fault α} {results : List (Except Fault α)}
    (h : Feed.Fails ⟨result :: results, last⟩ cause) :
    result = .error cause ∨ Feed.Fails ⟨results, last⟩ cause := by
  rcases h with hresult | hlast
  · exact (List.mem_cons.1 hresult).imp Eq.symm .inl
  · exact .inr (.inr hlast)

theorem Feed.Fails.cons {α : Type} {results : List (Except Fault α)}
    (h : Feed.Fails ⟨results, last⟩ cause) (result : Except Fault α) :
    Feed.Fails ⟨result :: results, last⟩ cause :=
  h.imp_left (List.mem_cons_of_mem _)

theorem mem_normalizeResults {held : Bool} {results : List (Except Fault Text)}
    (h : .error cause ∈ normalizeResults last held results) : .error cause ∈ results := by
  induction results generalizing held with
  | nil =>
    unfold normalizeResults at h
    split at h
    · cases List.mem_singleton.1 h
    · cases h
  | cons result results ih =>
    cases result with
    | error fault =>
      rcases List.mem_cons.1 h with heq | hmem
      · rw [heq]
        exact List.mem_cons_self
      · exact List.mem_cons_of_mem _ (ih hmem)
    | ok chunk =>
      rcases List.mem_cons.1 h with heq | hmem
      · cases heq
      · exact List.mem_cons_of_mem _ (ih hmem)

theorem fails_of_normalize {f : Feed Text} (h : f.normalize.Fails cause) : f.Fails cause :=
  h.imp_left mem_normalizeResults

theorem encoding_settle (d : Decoder) (decoded : Decoded) :
    (d.settle decoded).2.encoding = d.encoding := by
  cases decoded <;> rfl

theorem fails_settle (d : Decoder) (decoded : Decoded) :
    FailsOnly (fun cause => cause.isUndecodable = true) (d.settle decoded).1 := by
  cases decoded with
  | ok chars unfinished => exact failsOnly_ok chars
  | bad fault => exact failsOnly_error rfl

theorem finish_utf8 {d : Decoder} (hd : d.encoding = .utf8) (h : d.finish = some cause) :
    cause.isUndecodable = true := by
  rw [Decoder.finish, hd] at h
  cases hrest : Utf8.decodeAll d.carry with
  | ok chars unfinished => simp [hrest] at h
  | bad fault =>
    simp only [hrest, Option.some.injEq] at h
    subst h
    rfl

theorem fails_of_run {I : Decoder → Prop} {P : Fault → Prop}
    (hfeed : ∀ d chunk, I d → FailsOnly P (d.feed chunk).1 ∧ I (d.feed chunk).2)
    (hfinish : ∀ d fault, I d → d.finish = some fault → P fault) {d : Decoder} (hd : I d)
    {results : List (Except Fault Bytes)} (h : (d.run last results).Fails cause) :
    Feed.Fails ⟨results, last⟩ cause ∨ P cause := by
  induction results generalizing d with
  | nil =>
    rcases h with hresult | hlast
    · simp only [Decoder.run] at hresult
      split at hresult
      · cases hresult
      · cases List.mem_singleton.1 hresult
    · cases last with
      | some fault => exact .inl (.inr hlast)
      | none => exact .inr (hfinish d cause hd hlast)
  | cons result results ih =>
    cases result with
    | error fault =>
      rcases fails_cons h with heq | hmore
      · cases heq
        exact .inl (.inl List.mem_cons_self)
      · exact (ih hd hmore).imp_left (·.cons _)
    | ok chunk =>
      obtain ⟨hfails, hnext⟩ := hfeed d chunk hd
      rcases fails_cons h with heq | hmore
      · exact .inr (hfails _ heq)
      · exact (ih hnext hmore).imp_left (·.cons _)

theorem feed_utf8 {d : Decoder} (hd : d.encoding = .utf8) (chunk : Bytes) :
    FailsOnly (fun cause => cause.isUndecodable = true) (d.feed chunk).1 ∧
      (d.feed chunk).2.encoding = .utf8 := by
  have hfeed : d.feed chunk = d.settle (Utf8.decode (d.carry ++ chunk)) := by
    rw [Decoder.feed, hd]
  rw [hfeed]
  exact ⟨fails_settle d _, (encoding_settle d _).trans hd⟩

theorem fails_of_decode {f : Feed Bytes} (h : (f.decode .utf8).Fails cause) :
    f.Fails cause ∨ cause.isUndecodable = true :=
  fails_of_run (fun _ chunk hd => feed_utf8 hd chunk) (fun _ _ hd => finish_utf8 hd) rfl h

def Fault.OfGzip (cause : Fault) : Prop :=
  (∃ fault, cause = .gzip fault) ∨ cause = .cutShort ∨ cause = .invalidDeflate

namespace Gzip

def Faulty (x : Except (Fault × Bytes) Bytes) : Prop := FailsOnly (fun e => e.1.OfGzip) x

theorem faulty_afterField (length : Nat) (bytes : Bytes) : Faulty (afterField length bytes) := by
  unfold afterField
  split
  · exact failsOnly_error (.inr (.inl rfl))
  · exact failsOnly_ok _

theorem faulty_afterHeader (bytes : Bytes) : Faulty (afterHeader bytes) := by
  unfold afterHeader
  simp only
  split
  · exact failsOnly_error (.inl ⟨_, rfl⟩)
  · refine (faulty_afterField _ _).bind fun rest => ?_
    split
    · exact failsOnly_error (.inl ⟨_, rfl⟩)
    · split
      · refine (faulty_afterField _ _).bind fun after => (faulty_afterField _ _).bind fun rest => ?_
        split
        · exact faulty_afterField _ _
        · exact failsOnly_ok _
      · refine (failsOnly_ok rest).bind fun rest => ?_
        split
        · exact faulty_afterField _ _
        · exact failsOnly_ok _

theorem ofGzip_of_front {fault : Fault} {f : Feed Bytes} (hfault : fault.OfGzip)
    (hbehind : f.Fails cause → cause.OfGzip)
    (h : Feed.Fails ⟨.error fault :: f.results, f.last⟩ cause) : cause.OfGzip := by
  rcases fails_cons h with heq | hmore
  · cases heq
    exact hfault
  · exact hbehind hmore

theorem readFrom_fails {fuel : Nat} {part : Part} {bytes : Bytes}
    (h : (readFrom fuel part bytes).Fails cause) : cause.OfGzip := by
  fun_induction readFrom fuel part bytes with
  | case1 => rcases h with h | h <;> cases h
  | case2 => rcases h with h | h <;> cases h
  | case3 fuel bytes hne fault rest hheader f ih =>
    exact ofGzip_of_front (faulty_afterHeader bytes _ hheader) ih h
  | case4 fuel bytes hne data hheader delivered results hends =>
    rcases h with hresult | hlast
    · exact absurd hresult (error_notMem_map_ok _)
    · cases hlast
      exact .inr (.inr rfl)
  | case5 fuel bytes hne data hheader delivered results hends =>
    rcases h with hresult | hlast
    · exact absurd hresult (error_notMem_map_ok _)
    · cases hlast
      exact .inr (.inl rfl)
  | case6 fuel bytes hne data hheader delivered results stop content part f hends ih =>
    rcases h with hresult | hlast
    · rcases List.mem_append.1 hresult with hpiece | hmore
      · exact absurd hpiece (error_notMem_map_ok _)
      · exact ih (.inl hmore)
    · exact ih (.inr hlast)
  | case7 =>
    rcases h with h | h
    · cases h
    · cases h
      exact .inr (.inl rfl)
  | case8 fuel sum length bytes hlong rest stored hsum f ih => exact ofGzip_of_front (.inl ⟨_, rfl⟩) ih h
  | case9 fuel sum length bytes hlong rest stored hsum hlength f ih => exact ofGzip_of_front (.inl ⟨_, rfl⟩) ih h
  | case10 fuel sum length bytes hlong rest stored hsum hlength ih => exact ih h

end Gzip

theorem ofGzip_of_fails {bytes : Bytes} (h : (Feed.ofGzip bytes).Fails cause) : cause.OfGzip :=
  Gzip.readFrom_fails h

end Feeds

namespace LineStream

variable {cause : Fault} {last : Option Fault} {line : Except Fault Text}

theorem fails_of_lineFrom {results : List (Except Fault Text)} {buffer : Text} {rest : Rest}
    (h : lineFrom last results buffer = (line, rest)) :
    (line = .error cause → Feed.Fails ⟨results, last⟩ cause) ∧
      (Feed.Fails ⟨rest.results, last⟩ cause → Feed.Fails ⟨results, last⟩ cause) := by
  induction results generalizing buffer line rest with
  | nil =>
    unfold lineFrom at h
    split at h
    · cases h
      exact ⟨nofun, id⟩
    · cases last with
      | none =>
        cases h
        exact ⟨nofun, id⟩
      | some fault =>
        cases h
        exact ⟨fun heq => .inr (by rw [Except.error.inj heq]), id⟩
  | cons result results ih =>
    unfold lineFrom at h
    split at h
    · cases h
      exact ⟨nofun, id⟩
    · cases result with
      | error fault =>
        cases h
        exact ⟨fun heq => .inl (by rw [Except.error.inj heq]; exact List.mem_cons_self), (·.cons _)⟩
      | ok piece =>
        cases hrec : lineFrom last results piece with
        | mk tail rest' =>
          simp only [hrec, Prod.mk.injEq] at h
          obtain ⟨rfl, rfl⟩ := h
          obtain ⟨hfails, hmore⟩ := ih hrec
          refine ⟨fun heq => ?_, fun hrest => (hmore hrest).cons _⟩
          cases tail with
          | ok tail => cases heq
          | error fault =>
            cases heq
            exact (hfails rfl).cons _

theorem fails_of_readLine {s t : LineStream} (h : s.readLine = (line, t)) :
    (line = .error cause → s.feed.Fails cause ∨ ∃ message, s.broken = some message ∧
        cause = .device message) ∧
      (t.feed.Fails cause → s.feed.Fails cause) := by
  unfold readLine at h
  split at h
  · rename_i message hbroken
    cases h
    exact ⟨fun heq => .inr ⟨message, hbroken, (Except.error.inj heq).symm⟩, id⟩
  · cases hfrom : lineFrom s.feed.last s.feed.results s.buffer with
    | mk x rest =>
      simp only [hfrom, Prod.mk.injEq] at h
      obtain ⟨rfl, rfl⟩ := h
      obtain ⟨hfails, hmore⟩ := fails_of_lineFrom hfrom
      exact ⟨fun heq => .inl (hfails heq), hmore⟩

end LineStream

def Fault.IsStray (cause : Fault) : Prop := cause = .cutShort ∨ cause = .invalidDeflate

theorem Fault.OfGzip.reported {cause : Fault} (h : cause.OfGzip) :
    cause.isReported = true ∨ cause.IsStray := by
  rcases h with ⟨fault, rfl⟩ | hstray
  · exact .inl rfl
  · exact .inr hstray

end Input

namespace FileSystem

variable {fs : FileSystem} {name : Text}

theorem read_cases (fs : FileSystem) (name : Text) :
    (∃ bytes size, fs.read name = .ok bytes ∧ fs.size name = .ok size) ∨
      ∃ cause, fs.read name = .error cause ∧
        (fs.size name = .error cause ∨ ∃ size, fs.size name = .ok size) ∧
        (cause.isReported = true ∨ cause = .nulInName ∧ '\x00' ∈ name) := by
  by_cases hnul : '\x00' ∈ name
  · have hstatus : fs.status name = .error .nulInName := by rw [status, if_pos hnul]
    refine .inr ⟨.nulInName, ?_, .inl ?_, .inr ⟨rfl, hnul⟩⟩
    · rw [read, hstatus]; rfl
    · rw [size, hstatus]; rfl
  · obtain ⟨n, hstatus, -⟩ | ⟨fault, hstatus, -⟩ := fs.status_of_named hnul
    · cases n with
      | file number =>
        refine .inl ⟨fs.content number, (fs.content number).length, ?_, ?_⟩
        · rw [read, hstatus]; rfl
        · rw [size, hstatus]; rfl
      | directory path =>
        refine .inr ⟨.system .directory name, ?_, .inr ⟨4096, ?_⟩, .inl rfl⟩
        · rw [read, hstatus]; rfl
        · rw [size, hstatus]; rfl
    · refine .inr ⟨.system fault name, ?_, .inl ?_, .inl rfl⟩
      · rw [read, hstatus]; rfl
      · rw [size, hstatus]; rfl

end FileSystem

namespace Reader

open Input (Bytes Feed Encoding)

def usualFeed (file : Text) (bytes : Bytes) : Feed Text :=
  ((if ".gz".toList.isSuffixOf file then Feed.ofGzip bytes else Feed.ofBytes bytes).decode
    .utf8).normalize

theorem fails_usualFeed {file : Text} {bytes : Bytes} {cause : Input.Fault}
    (h : (usualFeed file bytes).Fails cause) :
    cause.isReported = true ∨
      cause.IsStray ∧ ".gz".toList <:+ file ∧ (Feed.ofGzip bytes).Fails cause := by
  rcases Input.fails_of_decode (Input.fails_of_normalize h) with hbytes | hdecoding
  · split at hbytes
    · rename_i hsuffix
      refine (Input.ofGzip_of_fails hbytes).reported.imp id fun hstray => ?_
      exact ⟨hstray, List.isSuffixOf_iff_suffix.1 hsuffix, hbytes⟩
    · exact absurd hbytes (Input.not_fails_ofBytes bytes)
  · left
    rw [Input.Fault.isReported, hdecoding, Bool.or_true]

namespace Opening

section Results

variable {α β : Type} {x : Opening α} {f : α → Opening β} {notes notes' : List Note}

theorem bind_of_ok {a : α} (h : x notes = .ok a notes') : (x >>= f) notes = f a notes' := by
  show EStateM.bind x f notes = _
  rw [EStateM.bind, h]

theorem bind_of_error {fault : Fault} (h : x notes = .error fault notes') :
    (x >>= f) notes = .error fault notes' := by
  show EStateM.bind x f notes = _
  rw [EStateM.bind, h]

theorem ofInput_of_ok {y : Except Input.Fault α} {a : α} (h : y = .ok a) :
    ofInput y notes = .ok a notes := by
  rw [h]
  rfl

theorem ofInput_of_error {y : Except Input.Fault α} {cause : Input.Fault} (h : y = .error cause) :
    ofInput y notes = .error (.input cause) notes := by
  rw [h]
  rfl

end Results

theorem ofName?_utf8 (codecs : Text → Option Input.Codec) :
    Encoding.ofName? "utf-8".toList codecs = .ok .utf8 := by cbv

theorem encodingName_usual (misuse : String → Misuse) (notes : List Note) :
    encodingName misuse ({} : Config).encoding notes = .ok "utf-8".toList notes := rfl

theorem compressed_usual (fs : FileSystem) (file : Text) (notes : List Note) : ∃ notes',
    compressed fs file {} notes = match fs.read file with
      | .ok bytes => .ok ((Feed.ofGzip bytes).decode .utf8) notes'
      | .error cause => .error (.input cause) notes' := by
  refine ⟨notes ++ [.openingCompressed file], ?_⟩
  have hnote : note (.openingCompressed file) notes = .ok () (notes ++ [.openingCompressed file]) := rfl
  unfold compressed
  rw [bind_of_ok hnote]
  cases hread : fs.read file with
  | error cause => exact bind_of_error (ofInput_of_error rfl)
  | ok bytes =>
    rw [bind_of_ok (ofInput_of_ok rfl), bind_of_ok (encodingName_usual _ _)]
    exact bind_of_ok (ofInput_of_ok (ofName?_utf8 fs.codecs))

theorem plain_usual (fs : FileSystem) (file : Text) (notes : List Note) : ∃ notes',
    plain fs file {} notes = match fs.read file with
      | .ok bytes => .ok ((Feed.ofBytes bytes).decode .utf8) notes'
      | .error cause => .error (.input cause) notes' := by
  have hwhole (n : Nat) : (bufferSize n ({} : Config).fileBufferSize).whole?.isNone = false := by
    simp only [bufferSize]
    split <;> rfl
  have hbehind (size : Nat) (hsize : fs.size file = .ok size) : ∃ notes',
      plain fs file {} notes = match fs.read file with
        | .ok bytes => .ok ((Feed.ofBytes bytes).decode .utf8) notes'
        | .error cause => .error (.input cause) notes' := by
    let buffer := bufferSize size ({} : Config).fileBufferSize
    refine ⟨notes ++ [.openingPlain file (wholePart buffer)], ?_⟩
    have hnote : note (.openingPlain file (wholePart buffer)) notes =
        .ok () (notes ++ [.openingPlain file (wholePart buffer)]) := rfl
    unfold plain
    rw [bind_of_ok (ofInput_of_ok hsize), bind_of_ok hnote, hwhole, if_neg Bool.false_ne_true]
    refine (bind_of_ok (encodingName_usual _ _)).trans ?_
    rw [if_neg (by decide)]
    cases hread : fs.read file with
    | error cause => exact bind_of_error (ofInput_of_error rfl)
    | ok bytes =>
      refine (bind_of_ok (ofInput_of_ok rfl)).trans ?_
      exact bind_of_ok (ofInput_of_ok (ofName?_utf8 fs.codecs))
  rcases fs.read_cases file with ⟨bytes, size, hread, hsize⟩ | ⟨cause, hread, hfails | ⟨size, hsize⟩, -⟩
  · exact hbehind size hsize
  · refine ⟨notes, ?_⟩
    rw [hread]
    exact bind_of_error (ofInput_of_error hfails)
  · exact hbehind size hsize

theorem isCompressed_usual (file : Text) (notes : List Note) :
    isCompressed file ({} : Config).compressedSuffixes notes =
      .ok (".gz".toList.isSuffixOf file) notes := by
  show (if ".gz".toList.isSuffixOf file then _ else _ : Opening Bool) notes = _
  cases ".gz".toList.isSuffixOf file <;> rfl

theorem text_usual (fs : FileSystem) (file : Text) : ∃ notes, text fs file {} [] =
    match fs.read file with
    | .ok bytes => .ok (usualFeed file bytes) notes
    | .error cause => .error (.input cause) notes := by
  have hchosen : decoded fs file {} [] =
      (if ".gz".toList.isSuffixOf file then compressed fs file {} else plain fs file {} : Opening _) [] :=
    bind_of_ok (isCompressed_usual file [])
  obtain ⟨notes, hdecoded⟩ : ∃ notes, decoded fs file {} [] = match fs.read file with
      | .ok bytes => .ok ((if ".gz".toList.isSuffixOf file then Feed.ofGzip bytes
          else Feed.ofBytes bytes).decode .utf8) notes
      | .error cause => .error (.input cause) notes := by
    rw [hchosen]
    split
    · exact compressed_usual fs file []
    · exact plain_usual fs file []
  refine ⟨notes, ?_⟩
  unfold text
  cases hread : fs.read file with
  | error cause =>
    rw [hread] at hdecoded
    exact bind_of_error hdecoded
  | ok bytes =>
    rw [hread] at hdecoded
    exact bind_of_ok hdecoded

end Opening

end Reader
end LineLexer
