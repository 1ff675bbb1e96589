import NegotiateAuth.Host
import NegotiateAuth.Proofs.Address

/-! # URLs of the web

A URL of one of the two usual schemes, without user information, is taken apart into the host and
the port that it was written with. A name of small letters, digits and signs is read as the domain
of that name, and the text of an IPv6 address in brackets as that address.
-/

namespace NegotiateAuth

/-! ## Hosts -/

theorem Address.Numeric.endsInNumber_of_letter {name last : List Char} {c : Char}
    (hlast : (Text.pieces '.' name).getLast? = some last) (hc : last.head? = some c)
    (hletter : c.isAlpha = true) : endsInNumber name = false := by
  obtain ⟨more, rfl⟩ : ∃ more, last = c :: more := by
    cases last with
    | nil => cases hc
    | cons first more => exact ⟨more, by rw [Option.some.inj hc]⟩
  have hdigit : Text.isDigitIn 10 c = false := by
    rw [Bool.eq_false_iff, ne_eq, Text.isDigitIn_ten_iff, Text.isDigit_iff]
    rw [Text.isAlpha_iff] at hletter
    omega
  have hread : readNumber? (c :: more) = none := by
    have hzero : c ≠ '0' := by
      rintro rfl
      exact absurd hletter (by decide)
    have hnone : Text.digitIn? 10 c = none := by simpa [Text.isDigitIn] using hdigit
    unfold readNumber?
    split
    case h_1 heq => cases heq
    case h_2 heq => exact absurd (List.cons.inj heq).1 hzero
    case h_3 heq => exact absurd (List.cons.inj heq).1 hzero
    case h_4 heq => exact absurd (List.cons.inj heq).1 hzero
    case h_5 => rw [Text.numberFrom?, hnone]
  have hparts : parts name = Text.pieces '.' name := by
    rw [parts, hlast]
    exact if_neg (by simp)
  rw [endsInNumber, hparts, hlast]
  simp [hdigit, hread]

namespace Url

namespace HostPart

theorem percentDecode_of_notMem {cs : List Char} (h : '%' ∉ cs) : percentDecode cs = cs := by
  induction cs with
  | nil => rfl
  | cons c cs ih =>
      simp only [List.mem_cons, not_or] at h
      rw [percentDecode, ih h.2]
      rintro high low rest rfl
      exact absurd rfl h.1

theorem readDomain_of_plain {name : List Char} (hchars : ∀ c ∈ name, isDomainChar c = true)
    (hlower : ∀ c ∈ name, c.toLower = c)
    (huncoded : ∀ label ∈ Text.pieces '.' name, DomainName.isCoded label = false) :
    readDomain name = .ok name := by
  have hpercent : '%' ∉ name := fun hpercent => absurd (hchars '%' hpercent) (by decide)
  have hmap : name.map Char.toLower = name :=
    (List.map_congr_left hlower).trans (List.map_id' name)
  rw [readDomain, percentDecode_of_notMem hpercent, hmap,
    DomainName.isWritable_of_plain huncoded, List.all_eq_true.2 hchars]
  rfl

theorem readWeb_of_name {name : List Char} (hne : name ≠ [])
    (hchars : ∀ c ∈ name, isDomainChar c = true) (hdomain : readDomain name = .ok name)
    (hnumber : Address.Numeric.endsInNumber name = false) :
    readWeb name = .ok (.domain (String.ofList name)) := by
  have hbracket : name.head? ≠ some '[' := fun hhead =>
    absurd (hchars '[' (List.mem_of_mem_head? hhead)) (by decide)
  rw [readWeb, if_neg hbracket, hdomain]
  simp [bind, Except.bind, hne, hnumber]

theorem readWeb_of_address (ip : Address.Ipv6) :
    readWeb ('[' :: (ip.toGroupText.toList ++ [']'])) = .ok (.ipv6 ip) := by
  have hlast : ('[' :: (ip.toGroupText.toList ++ [']'])).getLast? = some ']' := by
    rw [← List.cons_append, List.getLast?_concat]
  rw [readWeb, List.head?_cons, if_pos rfl, readBracketed, hlast]
  simp [Address.Ipv6.read?_toGroupText]

end HostPart

/-! ## URLs -/

theorem strip_of_visible {text : String} (h : ∀ c ∈ text.toList, 33 ≤ c.toNat) :
    strip text = text.toList := by
  have htrim : Text.trim (fun c => c.toNat ≤ 0x20) text.toList = text.toList := by
    apply Text.trim_word
    intro c hc
    have hvisible := h c hc
    exact decide_eq_false (by omega)
  rw [strip, htrim, List.filter_eq_self]
  intro c hc
  have hvisible := h c hc
  have htab : c ≠ '\t' := by rintro rfl; exact absurd hvisible (by decide)
  have hnewline : c ≠ '\n' := by rintro rfl; exact absurd hvisible (by decide)
  have hreturn : c ≠ '\r' := by rintro rfl; exact absurd hvisible (by decide)
  simp [htab, hnewline, hreturn]

theorem takeScheme?_web {scheme : String} (h : scheme = "http" ∨ scheme = "https")
    (rest : List Char) : takeScheme? (scheme.toList ++ ':' :: rest) = some (scheme, rest) := by
  have htake : (scheme.toList ++ ':' :: rest).takeWhile isSchemeChar = scheme.toList := by
    have hall : ∀ c ∈ scheme.toList, isSchemeChar c = true := by
      rcases h with rfl | rfl <;> exact List.all_eq_true.1 (by decide +kernel)
    rw [List.takeWhile_append_of_pos hall]
    simp [isSchemeChar]
  rw [takeScheme?, htake, List.drop_left]
  rcases h with rfl | rfl
  · rfl
  · rfl

theorem dropUser_of_notMem {cs : List Char} (h : '@' ∉ cs) (web : Bool) :
    dropUser web cs = .ok (false, cs) := by
  rw [dropUser]
  exact if_neg fun hmem => h ((List.takeWhile_sublist _).subset hmem)

section

variable {web : Bool} {rest : List Char}

/-- A word is part of the host if nothing in it ends the host, or changes what ends it. -/
theorem takeHost_append {inside : Bool} {word : List Char}
    (h : ∀ c ∈ word, endsAuthority web c = false ∧ (c == ':' && !inside) = false ∧
      (c == '[' || (inside && c != ']')) = inside) :
    takeHost web inside (word ++ rest) =
      (word ++ (takeHost web inside rest).1, (takeHost web inside rest).2) := by
  induction word with
  | nil => rfl
  | cons c word ih =>
      obtain ⟨hend, hcolon, hinside⟩ := h c List.mem_cons_self
      rw [List.cons_append, takeHost, hend, hcolon, hinside,
        ih fun d hd => h d (List.mem_cons_of_mem _ hd)]
      rfl

theorem takeHost_of_end (h : ∀ c ∈ rest.head?, c = ':' ∨ endsAuthority web c = true) :
    takeHost web false rest = ([], rest) := by
  cases rest with
  | nil => rfl
  | cons c rest =>
      rw [takeHost]
      refine if_pos ?_
      rcases h c rfl with rfl | hend
      · rfl
      · rw [hend, Bool.or_true]

theorem takeHost_of_name {name : List Char} (hend : ∀ c ∈ name, endsAuthority web c = false)
    (hcolon : ':' ∉ name) (hbracket : '[' ∉ name)
    (hrest : ∀ c ∈ rest.head?, c = ':' ∨ endsAuthority web c = true) :
    takeHost web false (name ++ rest) = (name, rest) := by
  rw [takeHost_append, takeHost_of_end hrest, List.append_nil]
  intro c hc
  have hne : c ≠ ':' := by rintro rfl; exact hcolon hc
  have hne' : c ≠ '[' := by rintro rfl; exact hbracket hc
  exact ⟨hend c hc, by simp [hne], by simp [hne']⟩

theorem takeHost_of_address {address : List Char}
    (hend : ∀ c ∈ address, endsAuthority web c = false) (hclose : ']' ∉ address)
    (hrest : ∀ c ∈ rest.head?, c = ':' ∨ endsAuthority web c = true) :
    takeHost web false ('[' :: (address ++ ']' :: rest)) =
      ('[' :: (address ++ [']']), rest) := by
  have hopen : endsAuthority web '[' = false := by cases web <;> rfl
  have hlast : endsAuthority web ']' = false := by cases web <;> rfl
  have hstop : takeHost web true (']' :: rest) = ([']'], rest) := by
    have hafter := takeHost_of_end hrest
    simp [takeHost, hlast, hafter]
  have hinside : takeHost web true (address ++ ']' :: rest) = (address ++ [']'], rest) := by
    rw [takeHost_append, hstop]
    intro c hc
    have hne : c ≠ ']' := by rintro rfl; exact hclose hc
    exact ⟨hend c hc, by simp, by simp [hne]⟩
  simp [takeHost, hopen, hinside]

end

/-! ## The port -/

theorem readPort_append {digits rest : List Char} (h : ∀ c ∈ digits, c.isDigit = true)
    (hrest : ∀ c ∈ rest.head?, endsAuthority true c = true) :
    readPort (digits ++ rest) =
      match Text.number? 10 digits with
      | none => .ok none
      | some number =>
          if number < 65536 then .ok (some (UInt16.ofNat number)) else .error .invalidPort := by
  have hdigits : ∀ c ∈ digits, Text.isDigitIn 10 c = true :=
    fun c hc => (Text.isDigitIn_ten_iff c).2 (h c hc)
  have htake : (digits ++ rest).takeWhile (Text.isDigitIn 10) = digits := by
    rw [List.takeWhile_append_of_pos hdigits]
    cases rest with
    | nil => exact List.append_nil digits
    | cons c rest =>
        have hend := hrest c rfl
        have hnone : ¬ Text.isDigitIn 10 c = true := by
          rw [Text.isDigitIn_ten_iff]
          intro hdigit
          simp only [endsAuthority, Bool.or_eq_true, beq_iff_eq, Bool.true_and] at hend
          rcases hend with ((rfl | rfl) | rfl) | rfl <;> exact absurd hdigit (by decide)
        rw [List.takeWhile_cons_of_neg hnone, List.append_nil]
  have hfollow : rest.head?.all (endsAuthority true) = true := by
    cases rest with
    | nil => rfl
    | cons c rest => exact hrest c rfl
  rw [readPort, htake, List.drop_left]
  exact if_pos hfollow

/-- A port that is left out is the one that is usual. -/
theorem effectivePort?_withPort (scheme : String) (host : Option HostPart) (port : Option UInt16) :
    (withPort scheme host port).effectivePort? = port.or (usualPort? scheme) := by
  unfold withPort
  split
  case isTrue husual =>
      rw [husual, Option.or_self]
      rfl
  case isFalse =>
      cases port with
      | none => rfl
      | some port => rfl

/-! ## The whole -/

theorem parse_web {text scheme : String} (hscheme : scheme = "http" ∨ scheme = "https")
    {name tail : List Char} (hvisible : ∀ c ∈ text.toList, 33 ≤ c.toNat)
    (htext : text.toList = scheme.toList ++ ("://".toList ++ (name ++ tail)))
    (hhead : ∀ c ∈ (name ++ tail).head?, isSlash c = false) (hat : '@' ∉ name ++ tail)
    (hne : name ≠ []) (htake : takeHost true false (name ++ tail) = (name, tail)) :
    parse text = do
      let host ← HostPart.readWeb name
      let port ← readTail tail
      return withPort scheme (some host) port := by
  have hslashes : (('/' :: '/' :: (name ++ tail)).dropWhile isSlash) = name ++ tail :=
    Text.trimStart_eq_self hhead
  have hnonempty : ¬ name.isEmpty = true := by simpa using hne
  have hweb : scheme ≠ "file" ∧ (usualPort? scheme).isSome = true := by
    rcases hscheme with rfl | rfl <;> decide
  have hsplit : takeScheme? (strip text) = some (scheme, '/' :: '/' :: (name ++ tail)) := by
    rw [strip_of_visible hvisible, htext]
    exact takeScheme?_web hscheme _
  rw [parse, hsplit]
  simp only [if_neg hweb.1, if_pos hweb.2, hslashes, parseWeb, dropUser_of_notMem hat, bind,
    Except.bind, htake, if_neg hnonempty]

end Url

end NegotiateAuth
