import LineLexer.Proofs.FeedFailures
import Mathlib

/-!
# Errors are told without tabs

Names and bytes stand quoted in the words of an error, and what is quoted holds no tab. So whatever
keeps a file from being opened is told without one, as far as it is told at all.
-/

namespace LineLexer

namespace Text

theorem tab_notMem_toDigits {base : Nat} (hbase : 1 < base) (hle : base ≤ 16) (n : Nat) :
    '\t' ∉ Nat.toDigits base n := by
  have hdigit : ∀ k < 16, '\t' ≠ Nat.digitChar k := by decide
  induction n using Nat.strongRecOn with
  | _ n ih =>
    rw [Nat.toDigits_eq_if hbase]
    split
    · rename_i hlt
      exact fun h => hdigit n (by omega) (List.mem_singleton.1 h)
    · have hmod : n % base < base := Nat.mod_lt n (by omega)
      have hmore := ih (n / base) (Nat.div_lt_self (by omega) hbase)
      simp only [List.mem_append, List.mem_singleton, not_or]
      exact ⟨hmore, hdigit _ (by omega)⟩

theorem tab_notMem_hexDigits (width n : Nat) : '\t' ∉ hexDigits width n := by
  simp [hexDigits, tab_notMem_toDigits, List.mem_replicate]

theorem tab_notMem_quotedChar {mark : Char} (hmark : mark ≠ '\t') (c : Char) :
    '\t' ∉ quotedChar mark c := by
  unfold quotedChar
  split
  · rename_i hescaped
    rcases hescaped with rfl | rfl
    · simpa using hmark.symm
    · decide
  · split
    · decide
    · decide
    · decide
    · rename_i htab
      split
      · exact fun h => htab (List.mem_singleton.1 h).symm
      · split
        · simp [tab_notMem_hexDigits]
        · split <;> simp [tab_notMem_hexDigits]

theorem quoteMark_ne_tab (s : Text) : quoteMark s ≠ '\t' := by
  unfold quoteMark
  split <;> decide

end Text

def Tabless (words : String) : Prop := '\t' ∉ words.toList

instance : DecidablePred Tabless := fun words => inferInstanceAs (Decidable ('\t' ∉ words.toList))

theorem Tabless.append {s t : String} (hs : Tabless s) (ht : Tabless t) : Tabless (s ++ t) := by
  simpa [Tabless] using ⟨hs, ht⟩

theorem tabless_ofList {s : Text} (h : '\t' ∉ s) : Tabless (String.ofList s) := by
  simpa [Tabless] using h

theorem tabless_toString (n : Nat) : Tabless (toString n) := by
  rw [Nat.toString_eq_ofList_toDigits]
  exact tabless_ofList (Text.tab_notMem_toDigits (by decide) (by decide) n)

section Quoted

open Text (quoted quoteMark quotedBytes quotedChar)

theorem tabless_between {mark : Char} (hmark : mark ≠ '\t') {s : Text} {shown : Char → Text}
    (hshown : ∀ c, '\t' ∉ shown c) : Tabless (String.ofList (mark :: s.flatMap shown ++ [mark])) := by
  apply tabless_ofList
  simp [hmark.symm, hshown]

theorem tabless_quoted (s : Text) : Tabless s.quoted :=
  tabless_between s.quoteMark_ne_tab (Text.tab_notMem_quotedChar s.quoteMark_ne_tab)

theorem tabless_quotedBytes (bytes : List UInt8) : Tabless (quotedBytes bytes) := by
  have hmark := Text.quoteMark_ne_tab (bytes.map fun b => Char.ofNat b.toNat)
  refine Tabless.append (by decide) (tabless_between hmark fun c => ?_)
  split
  · exact Text.tab_notMem_quotedChar hmark c
  · simp [Text.tab_notMem_hexDigits]

end Quoted

namespace Input

section Messages

theorem tabless_system (fault : SystemFault) (name : Text) :
    Tabless (Fault.system fault name).message := by
  have hwords : Tabless fault.words := by cases fault <;> decide
  have hnumber := Tabless.append (by decide : Tabless "[Errno ") (tabless_toString fault.number)
  exact (((hnumber.append (by decide : Tabless "] ")).append hwords).append
    (by decide : Tabless ": ")).append (tabless_quoted name)

theorem tabless_ofGzip {cause : Fault} (h : cause.OfGzip) : Tabless cause.message := by
  have hhex (n : Nat) : Tabless ("0x" ++ String.ofList (Nat.toDigits 16 n)) :=
    Tabless.append (by decide) (tabless_ofList (Text.tab_notMem_toDigits (by decide) (by decide) n))
  rcases h with ⟨fault, rfl⟩ | rfl | rfl
  · cases fault with
    | notGzip lead =>
      exact (Tabless.append (by decide : Tabless "Not a gzipped file (")
        (tabless_quotedBytes lead)).append (by decide : Tabless ")")
    | checksum stored computed =>
      exact ((Tabless.append (by decide : Tabless "CRC check failed ") (hhex stored)).append
        (by decide : Tabless " != ")).append (hhex computed)
    | unknownMethod => decide
    | dataLength => decide
  · decide
  · decide

theorem tabless_undecodable {fault : DecodeFault} (hcodec : Tabless fault.codec) :
    Tabless (Fault.undecodable fault).message := by
  have hreason : Tabless fault.reason.message := by
    cases fault.reason with
    | other words => exact words.property
    | _ => decide
  have hnamed := (Tabless.append (by decide : Tabless "'") hcodec).append
    (by decide : Tabless "' codec can't decode ")
  unfold Fault.message DecodeFault.message
  simp only
  refine ((hnamed.append ?_).append (by decide : Tabless ": ")).append hreason
  split
  · exact (((by decide : Tabless "byte 0x").append
      (tabless_ofList (Text.tab_notMem_hexDigits 2 _))).append
      (by decide : Tabless " in position ")).append (tabless_toString _)
  · exact (((by decide : Tabless "bytes in position ").append (tabless_toString _)).append
      (by decide : Tabless "-")).append (tabless_toString _)

end Messages

section Decoding

def Decoded.Told (d : Decoded) : Prop := ∀ fault, d = .bad fault → Tabless fault.codec

theorem told_ok (chars : Text) (unfinished : Bytes) : (Decoded.ok chars unfinished).Told := nofun

theorem told_bad {fault : DecodeFault} (h : Tabless fault.codec) : (Decoded.bad fault).Told := by
  rintro _ ⟨⟩
  exact h

theorem tabless_utf8 : Tabless "utf-8" := by decide

theorem told_utf8 (bytes : Bytes) : (Utf8.decode bytes).Told := by
  unfold Utf8.decode
  fun_induction Utf8.decodeFrom 0 [] bytes with
  | case1 => exact told_ok _ _
  | case2 position done lead rest c n hsequence ih => exact ih
  | case3 => exact told_ok _ _
  | case4 => exact told_bad tabless_utf8

theorem told_utf8_all (bytes : Bytes) : (Utf8.decodeAll bytes).Told := by
  have hdecode := told_utf8 bytes
  unfold Utf8.decodeAll
  split
  · exact told_ok _ _
  · exact told_bad tabless_utf8
  · rename_i fault hbad
    exact told_bad (hdecode fault hbad)

theorem tabless_codec (order : Utf16.Order) : Tabless order.codec := by cases order <;> decide

theorem told_utf16 (order : Utf16.Order) (skipped : Nat) (bytes : Bytes) :
    (Utf16.decode order skipped bytes).Told := by
  unfold Utf16.decode
  fun_induction Utf16.decodeFrom order skipped [] bytes with
  | case1 => exact told_bad (tabless_codec order)
  | case2 => rename_i ih; exact ih
  | case3 => exact told_bad (tabless_codec order)
  | case4 => exact told_ok _ _
  | case5 => rename_i ih; exact ih
  | case6 => exact told_ok _ _

theorem told_utf16_all (order : Utf16.Order) (skipped : Nat) (bytes : Bytes) :
    (Utf16.decodeAll order skipped bytes).Told := by
  have hdecode := told_utf16 order skipped bytes
  unfold Utf16.decodeAll
  split
  · exact told_ok _ _
  · exact told_bad (tabless_codec order)
  · rename_i fault hbad
    exact told_bad (hdecode fault hbad)

theorem told_ascii (bytes : Bytes) : (Decoder.asciiDecode bytes).Told := by
  unfold Decoder.asciiDecode
  split
  · exact told_ok _ _
  · exact told_bad (by decide : Tabless "ascii")

abbrev FailsTold {α : Type} (x : Except Fault α) : Prop := FailsOnly (fun cause => Tabless cause.message) x

theorem Decoded.Told.settle {decoded : Decoded} (h : decoded.Told) (d : Decoder) :
    FailsTold (d.settle decoded).1 := by
  cases decoded with
  | ok chars unfinished => exact failsOnly_ok chars
  | bad fault => exact failsOnly_error (tabless_undecodable (h fault rfl))

theorem failsTold_feed (d : Decoder) (chunk : Bytes) : FailsTold (d.feed chunk).1 := by
  unfold Decoder.feed
  simp only
  split
  · exact (told_utf8 _).settle d
  · exact failsOnly_ok _
  · exact (told_ascii _).settle d
  · exact (told_utf16 _ _ _).settle d
  · split
    · exact failsOnly_ok _
    · split <;> exact (told_utf8 _).settle _
  · split
    · rename_i order hmark
      have htold := told_utf16 order 2 ((d.carry ++ chunk).drop 2)
      split
      · exact failsOnly_ok _
      · rename_i fault hbad
        exact failsOnly_error (tabless_undecodable (htold fault hbad))
    · have htold := told_utf16 .little 0 (d.carry ++ chunk)
      split
      · split
        · exact failsOnly_error (by decide)
        · exact failsOnly_ok _
      · rename_i fault hbad
        exact failsOnly_error (tabless_undecodable (htold fault hbad))
  · rename_i codec seen _
    exact fun cause => codec.told seen (some chunk) cause

theorem tabless_finish {d : Decoder} {cause : Fault} (h : d.finish = some cause) :
    Tabless cause.message := by
  unfold Decoder.finish at h
  extract_lets fault? at h
  have hfault {decoded : Decoded} (hcause : fault? decoded = some cause) (htold : decoded.Told) :
      Tabless cause.message := by
    cases decoded with
    | ok chars unfinished => cases hcause
    | bad fault =>
      obtain rfl := Option.some.inj hcause
      exact tabless_undecodable (htold fault rfl)
  split at h
  · exact hfault h (told_utf8_all _)
  · exact hfault h (told_utf16_all _ _ _)
  · exact hfault h (told_utf16_all _ _ _)
  · cases h
  · cases h
  · cases h
  · rename_i codec seen _
    split at h
    · cases h
    · rename_i fault hfails
      obtain rfl := Option.some.inj h
      exact codec.told seen none fault hfails

theorem fails_of_decode_as {e : Encoding} {f : Feed Bytes} {cause : Fault}
    (h : (f.decode e).Fails cause) : f.Fails cause ∨ Tabless cause.message :=
  fails_of_run (I := fun _ => True) (fun d chunk _ => ⟨failsTold_feed d chunk, trivial⟩)
    (fun _ _ _ => tabless_finish) trivial h

end Decoding

end Input

namespace FileSystem

open Input (Fault)

variable (fs : FileSystem) (name : Text)

theorem tabless_status : Input.FailsTold (fs.status name) := by
  unfold status
  split
  · exact failsOnly_error (by decide : Tabless "embedded null byte")
  · split
    · exact failsOnly_error (Input.tabless_system _ _)
    · simp only
      cases fs.walk maxLinks (if isAbsolute name then [] else fs.workingDirectory) (components name) with
      | ok n => exact failsOnly_ok n
      | error fault => exact failsOnly_error (Input.tabless_system fault name)

theorem tabless_read : Input.FailsTold (fs.read name) :=
  (fs.tabless_status name).bind fun n => by
    cases n with
    | file number => exact failsOnly_ok _
    | directory path => exact failsOnly_error (Input.tabless_system _ _)

theorem tabless_size : Input.FailsTold (fs.size name) :=
  (fs.tabless_status name).bind fun n => by
    cases n <;> exact failsOnly_ok _

end FileSystem

/-- No fault of the source, and told without a tab as far as it is reported. -/
def Fault.ToldPlainly : Fault → Prop
  | .input cause => cause.isReported = true → Tabless cause.message
  | .lexical .. => False
  | _ => True

namespace Reader

open Input (Feed Encoding)

namespace Opening

def Tells {α : Type} (P : α → Prop) (x : Opening α) : Prop := ∀ notes, match x notes with
  | .ok a _ => P a
  | .error fault _ => fault.ToldPlainly

section Results

variable {α β : Type} {P : α → Prop} {Q : β → Prop}

theorem tells_pure {a : α} (h : P a) : Tells P (pure a) := fun _ => h

theorem tells_throw {fault : Fault} (h : fault.ToldPlainly) : Tells P (throw fault : Opening α) :=
  fun _ => h

theorem Tells.bind {x : Opening α} {f : α → Opening β} (hx : Tells P x)
    (hf : ∀ a, P a → Tells Q (f a)) : Tells Q (x >>= f) := by
  intro notes
  have hx := hx notes
  cases hrun : x notes with
  | ok a notes' =>
    rw [hrun] at hx
    rw [bind_of_ok hrun]
    exact hf a hx notes'
  | error fault notes' =>
    rw [hrun] at hx
    rw [bind_of_error hrun]
    exact hx

theorem tells_throw_bind {fault : Fault} (h : fault.ToldPlainly) (f : α → Opening β) :
    Tells Q (throw fault >>= f : Opening β) :=
  (tells_throw (P := fun _ => False) h).bind fun _ hfalse => hfalse.elim

theorem tells_note (n : Note) : Tells (fun _ => True) (note n) := fun _ => trivial

theorem tells_ofInput {x : Except Input.Fault α}
    (hx : FailsOnly (fun cause => cause.isReported = true → Tabless cause.message) x) :
    Tells (fun _ => True) (ofInput x) := by
  cases x with
  | ok a => exact tells_pure trivial
  | error cause => exact tells_throw (hx cause rfl)

end Results

variable (fs : FileSystem) (name : Text) (config : Config)

def Clean {α : Type} (f : Feed α) : Prop := ∀ cause, f.Fails cause → Tabless cause.message

theorem tells_isCompressed (suffixes : List Json) :
    Tells (fun _ => True) (isCompressed name suffixes) := by
  induction suffixes with
  | nil => exact tells_pure trivial
  | cons v rest ih =>
    cases v with
    | text s =>
      unfold isCompressed
      split
      · exact tells_pure trivial
      · exact ih
    | _ => exact tells_throw trivial

theorem tells_encodingName (misuse : String → Misuse) (encoding : Json) :
    Tells (fun _ => True) (encodingName misuse encoding) := by
  cases encoding with
  | text name => exact tells_pure trivial
  | null => exact tells_pure trivial
  | _ => exact tells_throw trivial

theorem tells_read : Tells (fun _ => True) (ofInput (fs.read name)) :=
  tells_ofInput fun cause h _ => fs.tabless_read name cause h

theorem tells_ofName : Tells (fun _ => True) (ofInput (Encoding.ofName? name fs.codecs)) := by
  refine tells_ofInput ?_
  unfold Encoding.ofName?
  split
  · exact failsOnly_error nofun
  · split
    · exact failsOnly_ok _
    · exact failsOnly_ok _
    · exact failsOnly_error nofun

theorem tells_compressed : Tells Clean (compressed fs name config) := by
  refine (tells_note _).bind fun _ _ => (tells_read fs name).bind fun bytes _ =>
    (tells_encodingName _ _).bind fun given _ => (tells_ofName fs given).bind fun encoding _ =>
      tells_pure fun cause h => ?_
  rcases Input.fails_of_decode_as h with hbytes | htold
  · exact Input.tabless_ofGzip (Input.ofGzip_of_fails hbytes)
  · exact htold

theorem tells_plain : Tells Clean (plain fs name config) := by
  refine (tells_ofInput fun cause h _ => fs.tabless_size name cause h).bind fun size _ =>
    (tells_note _).bind fun _ _ => ?_
  simp only
  split
  · refine tells_throw_bind ?_ _
    trivial
  · refine (tells_encodingName _ _).bind fun given _ => ?_
    split
    · refine tells_throw_bind ?_ _
      nofun
    · refine (tells_read fs name).bind fun bytes _ => (tells_ofName fs given).bind fun encoding _ =>
        tells_pure fun cause h => ?_
      exact (Input.fails_of_decode_as h).resolve_left (Input.not_fails_ofBytes bytes)

theorem tells_text : Tells Clean (text fs name config) := by
  have hdecoded : Tells Clean (decoded fs name config) := by
    refine (tells_isCompressed name _).bind fun suffixed _ => ?_
    cases suffixed with
    | true => exact tells_compressed fs name config
    | false => exact tells_plain fs name config
  exact hdecoded.bind fun feed hclean => tells_pure fun cause h => hclean cause (Input.fails_of_normalize h)

end Opening

/-- Whatever keeps a file from being opened, if it is reported, is told without a tab. -/
theorem toldPlainly_ofFile {fs : FileSystem} {file : Text} {config : Config} {failure : OpenFailure}
    (h : ofFile fs file config = .error failure) : failure.fault.ToldPlainly := by
  have htext := Opening.tells_text fs file config []
  unfold ofFile at h
  cases hopened : Opening.text fs file config [] with
  | error fault notes =>
    rw [hopened] at h htext
    cases h
    exact htext
  | ok feed notes =>
    rw [hopened] at htext
    simp only [hopened] at h
    cases hread : ({ feed } : Input.LineStream).readLine with
    | mk line t =>
      match line with
      | .ok [] | .ok (c :: rest) => simp [loadLine, hread] at h
      | .error cause =>
        simp only [loadLine, hread, Bool.false_eq_true, if_false, Except.error.injEq] at h
        subst h
        rcases (Input.LineStream.fails_of_readLine hread).1 rfl with hfails | ⟨message, hbroken, -⟩
        · exact fun _ => htext cause hfails
        · cases hbroken

end Reader

end LineLexer
