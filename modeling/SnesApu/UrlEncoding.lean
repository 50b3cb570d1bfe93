import SnesApu.TrackPath
import SnesApu.General.Escape

/-!
# Encoding an archive path as one URL component

`urlDecode` is the usual reader of a percent-encoded text: a `%` with two
hexadecimal digits after it is a byte, and a `+` is a space. `URLEncode` writes
what this reader understands in every locale, since `isalnum` holds of no
punctuation character.
-/

namespace SnesApu

open General.Escape

def isHexDigit (c : UInt8) : Bool := (48 ≤ c && c ≤ 57) || (65 ≤ c && c ≤ 70) || (97 ≤ c && c ≤ 102)

def hexValue (c : UInt8) : UInt8 := if c ≤ 57 then c - 48 else if c ≤ 70 then c - 55 else c - 87

def urlReader : Reader UInt8 where
  mark := 37
  isDigit := isHexDigit
  value a b := 16 * hexValue a + hexValue b
  plain c := if c = 43 then 32 else c
  isDigit_mark := by decide

def urlDecode (s : Bytes) : Bytes := urlReader.unescape s

example : urlDecode (ascii "a%2fB+%7") = ascii "a/B %7" := by decide

def isPunctuation (c : UInt8) : Bool :=
  (33 ≤ c && c ≤ 47) || (58 ≤ c && c ≤ 64) || (91 ≤ c && c ≤ 96) || (123 ≤ c && c ≤ 126)

def ExcludesPunctuation (isalnum : UInt8 → Bool) : Prop :=
  ∀ c, isPunctuation c → isalnum c = false

/-- The characters that end or split a component of a URL. -/
def urlDelimiters : Bytes := ascii "/+?#@:"

section Digits

theorem hexValue_hexDigit {n : UInt8} (h : n < 16) :
    isHexDigit (hexDigit n) ∧ hexValue (hexDigit n) = n := by
  have hall : ∀ m : Fin 16, isHexDigit (hexDigit (UInt8.ofNat m)) ∧
      hexValue (hexDigit (UInt8.ofNat m)) = UInt8.ofNat m := by decide
  have hn : UInt8.ofNat n.toNat = n := UInt8.ofNat_toNat
  have hdigit := hall ⟨n.toNat, UInt8.lt_iff_toNat_lt.mp h⟩
  rwa [hn] at hdigit

theorem halves_lt (c : UInt8) : c / 16 < 16 ∧ c % 16 < 16 := by
  rw [UInt8.lt_iff_toNat_lt, UInt8.lt_iff_toNat_lt, UInt8.toNat_div, UInt8.toNat_mod]
  change c.toNat / 16 < 16 ∧ c.toNat % 16 < 16
  have hc := c.toNat_lt
  omega

theorem halves_eq (c : UInt8) : 16 * (c / 16) + c % 16 = c := by
  apply UInt8.toNat_inj.mp
  rw [UInt8.toNat_add, UInt8.toNat_mul, UInt8.toNat_div, UInt8.toNat_mod]
  change (16 * (c.toNat / 16) % 256 + c.toNat % 16) % 256 = c.toNat
  have hc := c.toNat_lt
  omega

end Digits

section Encoding

variable {env : Environment}

theorem isUnreserved_eq_false (h : ExcludesPunctuation env.isalnum) {c : UInt8}
    (hc : c ∈ 37 :: urlDelimiters) : isUnreserved env c = false := by
  have hall : ((37 :: urlDelimiters).all fun c => isPunctuation c &&
      !(c = 45 || c = 46 || c = 95 || c = 33 || c = 40 || c = 41)) = true := by decide
  have hreserved := List.all_eq_true.mp hall c hc
  simp only [Bool.and_eq_true, Bool.not_eq_true'] at hreserved
  obtain ⟨hpunct, hothers⟩ := hreserved
  simpa only [isUnreserved, h c hpunct, Bool.false_or] using hothers

def urlWriter (env : Environment) (h : ExcludesPunctuation env.isalnum) : Writer urlReader where
  keep := isUnreserved env
  high c := hexDigit (c / 16)
  low c := hexDigit (c % 16)
  keep_mark := isUnreserved_eq_false h List.mem_cons_self
  plain_of_keep c hc := by
    have hplus : c ≠ 43 := by
      intro heq
      rw [heq, isUnreserved_eq_false h (by decide)] at hc
      exact Bool.noConfusion hc
    exact if_neg hplus
  isDigit_high c := (hexValue_hexDigit (halves_lt c).1).1
  isDigit_low c := (hexValue_hexDigit (halves_lt c).2).1
  value_digits c := by
    change 16 * hexValue (hexDigit (c / 16)) + hexValue (hexDigit (c % 16)) = c
    rw [(hexValue_hexDigit (halves_lt c).1).2, (hexValue_hexDigit (halves_lt c).2).2, halves_eq]

theorem urlEncode_eq (h : ExcludesPunctuation env.isalnum) (s : Bytes) :
    urlEncode env s = (urlWriter env h).escape s := rfl

theorem urlWriter_excludes (h : ExcludesPunctuation env.isalnum) {c : UInt8}
    (hc : c ∈ urlDelimiters) : (urlWriter env h).Excludes c := by
  have hall : (urlDelimiters.all fun c => c ≠ 37 && !isHexDigit c) = true := by decide
  have hother := List.all_eq_true.mp hall c hc
  simp only [Bool.and_eq_true, decide_eq_true_eq, Bool.not_eq_true'] at hother
  exact ⟨isUnreserved_eq_false h (List.mem_cons_of_mem 37 hc), hother⟩

theorem urlDecode_urlEncode (h : ExcludesPunctuation env.isalnum) (s : Bytes) :
    urlDecode (urlEncode env s) = s := by
  rw [urlEncode_eq h]
  exact (urlWriter env h).unescape_escape s

end Encoding

/-- What stands between the scheme of a `rar://` URL and the first `/` after it. -/
def archiveComponent (url : Bytes) : Bytes :=
  (url.drop (ascii "rar://").length).takeWhile (· ≠ 47)

theorem archiveComponent_rarUrl {env : Environment} (h : ExcludesPunctuation env.isalnum)
    (s rest : Bytes) :
    archiveComponent (rarUrl env s ++ ascii "/" ++ rest) = urlEncode env s := by
  have hslash : (47 : UInt8) ∈ urlDelimiters := by decide
  rw [archiveComponent, rarUrl, List.append_assoc, List.append_assoc, List.drop_left,
    urlEncode_eq h]
  exact (urlWriter_excludes h hslash).takeWhile_escape s rest

structure SafeComponent (env : Environment) (s : Bytes) : Prop where
  decodes : urlDecode (urlEncode env s) = s
  noDelimiter : ∀ c ∈ urlDelimiters, c ∉ urlEncode env s
  escapes : urlReader.MarksComplete (urlEncode env s)
  ends : ∀ rest, archiveComponent (rarUrl env s ++ ascii "/" ++ rest) = urlEncode env s

/-- Every path is encoded as a safe component, and no two paths alike. -/
theorem urlEncode_safe {env : Environment} (h : ExcludesPunctuation env.isalnum) :
    (∀ s, SafeComponent env s) ∧ Function.Injective (urlEncode env) := by
  refine ⟨fun s => ⟨urlDecode_urlEncode h s, ?_, ?_, archiveComponent_rarUrl h s⟩, ?_⟩
  · intro c hc
    rw [urlEncode_eq h]
    exact (urlWriter_excludes h hc).notMem_escape s
  · rw [urlEncode_eq h]
    exact (urlWriter env h).marksComplete_escape s
  · exact Function.LeftInverse.injective (urlDecode_urlEncode h)

theorem urlEncode_safe_plain :
    urlDecode (urlEncode (Environment.ofFile (.ofBytes []) []) (ascii "C++/a%2Fb.rsn")) =
        ascii "C++/a%2Fb.rsn" ∧
      archiveComponent (rarUrl (Environment.ofFile (.ofBytes []) []) (ascii "C++/a%2Fb.rsn") ++
        ascii "/" ++ ascii "01.spc") = ascii "C%2B%2B%2Fa%252Fb.rsn" := by
  have hlocale : ExcludesPunctuation (Environment.ofFile (.ofBytes []) []).isalnum := by
    intro c hc
    simp only [isPunctuation, Bool.or_eq_true, Bool.and_eq_true, decide_eq_true_eq] at hc
    simp only [Environment.ofFile, Bool.or_eq_false_iff, Bool.and_eq_false_iff,
      decide_eq_false_iff_not]
    grind
  have hsafe := (urlEncode_safe hlocale).1 (ascii "C++/a%2Fb.rsn")
  refine ⟨hsafe.decodes, ?_⟩
  rw [hsafe.ends]
  decide

end SnesApu
