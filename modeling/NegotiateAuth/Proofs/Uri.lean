import Mathlib.Data.List.TakeWhile
import NegotiateAuth.Proofs.Text
import NegotiateAuth.Uri

/-! # Absolute targets of the web

A target of one of the two usual schemes is taken apart into the authority and the path that it was
written with, and the authority, a name or an address in brackets with a port or without one, into
the host and the port.
-/

namespace NegotiateAuth

/-! ## Authorities -/

namespace Uri

namespace Scan

theorem step_plain {c : Char} (h : isPlain c = true) (scan : Scan) :
    scan.step c = .ok { scan with afterAt := false } := by
  unfold step
  split
  case h_6 => rw [if_pos h]
  all_goals exact absurd h (by decide)

/-- The colons are counted, of which there may be eight. -/
theorem foldlM_step {word : List Char} (h : ∀ c ∈ word, isPlain c = true ∨ c = ':')
    (opened closed percent : Bool) {colons : Nat} (hcount : colons + word.count ':' ≤ 8) :
    word.foldlM step ⟨colons, opened, closed, percent, false⟩ =
      .ok ⟨colons + word.count ':', opened, closed, percent, false⟩ := by
  induction word generalizing colons with
  | nil => rfl
  | cons c word ih =>
      have hword : ∀ d ∈ word, isPlain d = true ∨ d = ':' :=
        fun d hd => h d (List.mem_cons_of_mem _ hd)
      rw [List.foldlM_cons]
      by_cases hcolon : c = ':'
      · subst hcolon
        rw [List.count_cons_self] at hcount ⊢
        have hstep : step ⟨colons, opened, closed, percent, false⟩ ':' =
            .ok ⟨colons + 1, opened, closed, percent, false⟩ := if_neg (by simp only; omega)
        rw [hstep]
        refine (ih hword (by omega)).trans ?_
        rw [Nat.add_assoc, Nat.add_comm 1]
      · rw [List.count_cons_of_ne hcolon] at hcount ⊢
        rw [step_plain ((h c List.mem_cons_self).resolve_right hcolon)]
        exact ih hword hcount

end Scan

theorem checkAuthority_plain {authority : List Char}
    (h : ∀ c ∈ authority, isPlain c = true ∨ c = ':') (hcount : authority.count ':' ≤ 1) :
    checkAuthority authority = .ok () := by
  rw [checkAuthority, Scan.start, Scan.foldlM_step h false false false (by omega)]
  refine if_pos ?_
  simpa [Scan.isFinal] using hcount

/-- The colons of an address are forgotten at its end. -/
theorem checkAuthority_bracketed {address rest : List Char}
    (h : ∀ c ∈ address, isPlain c = true ∨ c = ':') (hcount : address.count ':' ≤ 8)
    (hrest : ∀ c ∈ rest, isPlain c = true ∨ c = ':') (hone : rest.count ':' ≤ 1) :
    checkAuthority ('[' :: (address ++ ']' :: rest)) = .ok () := by
  have hscan := calc ('[' :: (address ++ ']' :: rest)).foldlM Scan.step Scan.start
    _ = (address ++ ']' :: rest).foldlM Scan.step ⟨0, true, false, false, false⟩ := rfl
    _ = (']' :: rest).foldlM Scan.step ⟨0 + address.count ':', true, false, false, false⟩ := by
        rw [List.foldlM_append, Scan.foldlM_step h true false false (by omega)]
        rfl
    _ = rest.foldlM Scan.step ⟨0, true, true, false, false⟩ := rfl
    _ = .ok ⟨0 + rest.count ':', true, true, false, false⟩ :=
        Scan.foldlM_step hrest true true false (by omega)
  rw [checkAuthority, hscan]
  refine if_pos ?_
  simpa [Scan.isFinal] using hone

theorem takeAuthority_append {authority tail : List Char} (hne : authority ≠ [])
    (hinside : ∀ c ∈ authority, endsAuthority c = false)
    (htail : ∀ c ∈ tail.head?, endsAuthority c = true)
    (hcheck : checkAuthority authority = .ok ()) :
    takeAuthority (authority ++ tail) = .ok (authority, tail) := by
  have htake := Text.takeWhile_word hinside htail
  have hnonempty : ¬ (authority ++ tail).isEmpty = true := by simp [hne]
  rw [takeAuthority, if_neg hnonempty]
  dsimp only
  rw [htake, hcheck, List.drop_left]
  rfl

/-! ## The host -/

theorem authorityHost_of_name {name rest : List Char} (hat : '@' ∉ name ++ rest)
    (hbracket : '[' ∉ name ++ rest) (hcolon : ':' ∉ name) (hrest : ∀ c ∈ rest.head?, c = ':') :
    authorityHost (name ++ rest) = name := by
  have hplace : Text.lastPiece '@' (name ++ rest) = name ++ rest := by
    rw [Text.lastPiece, Text.pieces_of_notMem hat]
    rfl
  have hfirst : Text.firstPiece ':' (name ++ rest) = name := by
    rw [Text.firstPiece_append_of_notMem hcolon]
    cases rest with
    | nil => exact List.append_nil name
    | cons c rest =>
        obtain rfl := hrest c rfl
        simp [Text.firstPiece]
  rw [authorityHost, hplace]
  split
  case h_1 more heq => exact absurd (heq ▸ List.mem_cons_self) hbracket
  case h_2 => exact hfirst

theorem authorityHost_of_bracketed {address rest : List Char}
    (hat : '@' ∉ '[' :: (address ++ ']' :: rest)) (hclose : ']' ∉ address) :
    authorityHost ('[' :: (address ++ ']' :: rest)) = '[' :: (address ++ [']']) := by
  have hplace : Text.lastPiece '@' ('[' :: (address ++ ']' :: rest)) =
      '[' :: (address ++ ']' :: rest) := by
    rw [Text.lastPiece, Text.pieces_of_notMem hat]
    rfl
  have hfirst : Text.firstPiece ']' ('[' :: address ++ ']' :: rest) = '[' :: address := by
    rw [Text.firstPiece_append_of_notMem (by simpa using hclose)]
    simp [Text.firstPiece]
  rw [authorityHost, hplace]
  exact congrArg (· ++ [']']) hfirst

/-! ## The port -/

theorem portNumber?_of_isDigit {digits : List Char} (h : ∀ c ∈ digits, c.isDigit = true) :
    portNumber? digits = (Text.number? 10 digits).bind fun number =>
      if number < 65536 then some (UInt16.ofNat number) else none := by
  have hplus : '+' ∉ digits := fun hplus => absurd (h '+' hplus) (by decide)
  unfold portNumber?
  split
  case h_1 rest => exact absurd List.mem_cons_self hplus
  case h_2 =>
      dsimp only
      cases Text.number? 10 digits <;> simp

theorem number?_of_bracket {cs : List Char} (h : ']' ∈ cs) : Text.number? 10 cs = none := by
  rw [Option.eq_none_iff_forall_ne_some]
  intro number hnumber
  unfold Text.number? at hnumber
  split at hnumber
  case isTrue => cases hnumber
  case isFalse => exact absurd (Text.isDigitIn_of_numberFrom? hnumber ']' h) (by decide)

theorem portNumber?_of_bracket {cs : List Char} (h : ']' ∈ cs) : portNumber? cs = none := by
  unfold portNumber?
  split
  case h_1 rest => simp only [number?_of_bracket (List.mem_of_ne_of_mem (by decide) h)]
  case h_2 => simp only [number?_of_bracket h]

theorem authorityPort?_append_colon (host : List Char) {digits : List Char}
    (h : ∀ c ∈ digits, c.isDigit = true) :
    authorityPort? (host ++ ':' :: digits) = portNumber? digits := by
  have hcolon : ':' ∉ digits := fun hcolon => absurd (h ':' hcolon) (by decide)
  rw [authorityPort?, if_pos (by simp), Text.lastPiece, Text.pieces_append_sep,
    Text.pieces_of_notMem hcolon]
  simp

theorem authorityPort?_of_colon_notMem {host : List Char} (h : ':' ∉ host) :
    authorityPort? host = none :=
  if_neg h

/-- What follows the last colon of an address in brackets is no port. -/
theorem authorityPort?_of_bracketed (address : List Char) :
    authorityPort? (address ++ [']']) = none := by
  by_cases hcolon : ':' ∈ address
  · obtain ⟨last, rest, hsplit, hlast⟩ :=
      List.eq_append_cons_of_mem (List.mem_reverse.2 hcolon)
    have haddress : address = rest.reverse ++ ':' :: last.reverse := by
      rw [← List.reverse_reverse address, hsplit]
      simp
    have hend : ':' ∉ last.reverse ++ [']'] := by simpa using hlast
    rw [authorityPort?, if_pos (by simp [hcolon]), haddress, List.append_assoc, List.cons_append,
      Text.lastPiece, Text.pieces_append_sep, Text.pieces_of_notMem hend, List.getLastD_concat]
    exact portNumber?_of_bracket (by simp)
  · exact authorityPort?_of_colon_notMem (by simpa using hcolon)

/-! ## Targets -/

theorem dropFolded?_append {lead : String} (h : lead.toList.map Char.toLower = lead.toList)
    (rest : List Char) : dropFolded? lead (lead.toList ++ rest) = some rest := by
  have hlength : lead.length = lead.toList.length := String.length_toList.symm
  rw [dropFolded?, hlength, List.take_left, if_pos h, List.drop_left]

theorem dropFolded?_http_https (rest : List Char) :
    dropFolded? "http://" ("https://".toList ++ rest) = none := by
  have htake : ("https://".toList ++ rest).take "http://".length = "https:/".toList := rfl
  rw [dropFolded?, htake]
  exact if_neg (by decide +kernel)

theorem takeScheme_web {scheme : String} (h : scheme = "http" ∨ scheme = "https")
    (rest : List Char) :
    takeScheme (scheme.toList ++ ("://".toList ++ rest)) = .ok (some scheme.toList, rest) := by
  rw [← List.append_assoc]
  rcases h with rfl | rfl
  · have hhttp : dropFolded? "http://" ("http".toList ++ "://".toList ++ rest) = some rest :=
      dropFolded?_append (by decide +kernel) rest
    rw [takeScheme, hhttp]
  · have hhttp : dropFolded? "http://" ("https".toList ++ "://".toList ++ rest) = none :=
      dropFolded?_http_https rest
    have hhttps : dropFolded? "https://" ("https".toList ++ "://".toList ++ rest) = some rest :=
      dropFolded?_append (by decide +kernel) rest
    rw [takeScheme, hhttp, hhttps]

theorem ofParts_of_path {path : List Char}
    (hend : ∀ c ∈ path, (c != '?' && c != '#') = true) (hpath : path.all isPathChar = true)
    (scheme authority : List Char) :
    ofParts (some scheme) (some authority) path =
      .ok
        { scheme := some (String.ofList scheme)
          authority := some (String.ofList authority)
          path := if path.isEmpty then "/" else String.ofList path
          query := none } := by
  have htake : path.takeWhile (fun c => c != '?' && c != '#') = path :=
    List.takeWhile_eq_self_iff.2 hend
  have hsplit : splitQuery path = (path, none) := by
    rw [splitQuery, htake, List.drop_length]
  rw [ofParts, hsplit]
  simp [hpath]

theorem parse_of_full {text : String} {c d : Char} {rest : List Char} (hc : c ≠ '/')
    (htext : text.toList = c :: d :: rest) (hsize : text.utf8ByteSize ≤ 65534) :
    parse text = parseFull (c :: d :: rest) := by
  rw [parse, if_neg (Nat.not_lt_of_le hsize), htext]
  split
  case h_1 heq => cases heq
  case h_2 heq => exact absurd (List.cons.inj heq).1 hc
  case h_3 heq => cases heq
  case h_4 => rfl

theorem utf8ByteSize_of_parse {text : String} {uri : Uri} (h : parse text = .ok uri) :
    text.utf8ByteSize ≤ 65534 := by
  rw [parse] at h
  split at h
  case isTrue => cases h
  case isFalse hsize => exact Nat.le_of_not_lt hsize

/-- A text with a scheme of the web is taken apart where its authority ends. -/
theorem parse_web {text scheme : String} (hscheme : scheme = "http" ∨ scheme = "https")
    {authority path : List Char} (hsize : text.utf8ByteSize ≤ 65534)
    (htext : text.toList = scheme.toList ++ ("://".toList ++ (authority ++ path)))
    (hne : authority ≠ []) (hinside : ∀ c ∈ authority, endsAuthority c = false)
    (hcheck : checkAuthority authority = .ok ())
    (hpath : ∀ c ∈ path.head?, endsAuthority c = true)
    (hend : ∀ c ∈ path, (c != '?' && c != '#') = true) (hchars : path.all isPathChar = true) :
    parse text =
      .ok
        { scheme := some scheme
          authority := some (String.ofList authority)
          path := if path.isEmpty then "/" else String.ofList path
          query := none } := by
  obtain ⟨c, d, more, hc, hfront⟩ : ∃ c d more, c ≠ '/' ∧ scheme.toList = c :: d :: more := by
    rcases hscheme with rfl | rfl
    · exact ⟨_, _, _, by decide, rfl⟩
    · exact ⟨_, _, _, by decide, rfl⟩
  have hfull : parse text = parseFull text.toList := by
    rw [htext, hfront]
    refine parse_of_full hc ?_ hsize
    rw [htext, hfront]
    rfl
  have htake := takeAuthority_append hne hinside hpath hcheck
  have hnonempty : ¬ authority.isEmpty = true := by simpa using hne
  rw [hfull, htext, parseFull, takeScheme_web hscheme]
  simp only [bind, Except.bind, htake]
  rw [if_neg hnonempty, ofParts_of_path hend hchars, String.ofList_toList]

end Uri

end NegotiateAuth
