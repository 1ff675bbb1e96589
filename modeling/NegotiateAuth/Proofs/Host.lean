import Mathlib.Data.Bool.AllAny
import NegotiateAuth.Proofs.Uri
import NegotiateAuth.Proofs.Url

/-! # Addresses of the web

A host is written as a name in small ASCII letters, or as an IPv6 address in the one text that it
has. A text with a scheme of the web, such a host, perhaps a port and a path is read alike as a
request target and as a URL: either reading gives the host that it was written with.
-/

namespace NegotiateAuth

structure HostLabel where
  chars : List Char
  first_letter : ∃ c ∈ chars.head?, c.isLower = true
  plain : ∀ c ∈ chars, c.isLower = true ∨ c.isDigit = true ∨ c = '-'
  uncoded : ¬ "xn--".toList <+: chars

def HostLabel.joined (labels : List HostLabel) : List Char :=
  ['.'].intercalate (labels.map HostLabel.chars)

inductive WrittenHost where
  | name (labels : List HostLabel) (some_label : labels ≠ [])
  | address (ip : Address.Ipv6)

namespace WrittenHost

def bare : WrittenHost → List Char
  | name labels _ => HostLabel.joined labels
  | address ip => ip.toGroupText.toList

def chars : WrittenHost → List Char
  | name labels some_label => (name labels some_label).bare
  | address ip => (Url.HostPart.ipv6 ip).toText.toList

end WrittenHost

/-! ## Characters -/

def isNameChar (c : Char) : Bool :=
  c.isLower || c.isDigit || c == '-' || c == '.'

/-- A character between the slashes after the scheme and the path. -/
def isPlaceChar (c : Char) : Bool :=
  c.isAlphanum || "-.:[]".toList.contains c

theorem ascii_of_isAlphanum {c : Char} (h : c.isAlphanum = true) : c.toNat < 128 := by
  rw [Char.isAlphanum, Bool.or_eq_true, Text.isAlpha_iff, Text.isDigit_iff] at h
  omega

theorem ascii_of_isNameChar {c : Char} (h : isNameChar c = true) : c.toNat < 128 := by
  simp only [isNameChar, Bool.or_eq_true, beq_iff_eq, Text.isLower_iff, Text.isDigit_iff] at h
  rcases h with ((h | h) | rfl) | rfl
  · omega
  · omega
  · decide
  · decide

theorem ascii_of_isPlaceChar {c : Char} (h : isPlaceChar c = true) : c.toNat < 128 := by
  rcases Bool.or_eq_true_iff.1 h with h | h
  · exact ascii_of_isAlphanum h
  · have hsigns : ∀ sign ∈ "-.:[]".toList, sign.toNat < 128 :=
      List.all_iff_forall_prop.1 (by decide +kernel)
    exact hsigns c (List.contains_iff_mem.1 h)

structure StandsInName (c : Char) : Prop where
  place : isPlaceChar c = true
  plain : Uri.isPlain c = true
  domain : Url.HostPart.isDomainChar c = true
  small : c.toLower = c
  not_colon : c ≠ ':'
  not_open : c ≠ '['

theorem standsInName {c : Char} (h : isNameChar c = true) : StandsInName c := by
  obtain ⟨place, plain, domain, small, not_colon, not_open⟩ :=
    Text.forall_ascii (P := fun c => isNameChar c = true → isPlaceChar c = true ∧
      Uri.isPlain c = true ∧ Url.HostPart.isDomainChar c = true ∧ c.toLower = c ∧ c ≠ ':' ∧
      c ≠ '[') (by decide +kernel) (ascii_of_isNameChar h) h
  exact ⟨place, plain, domain, small, not_colon, not_open⟩

structure StandsInPlace (c : Char) : Prop where
  visible : 33 ≤ c.toNat
  inside_uri : Uri.endsAuthority c = false
  inside_url : Url.endsAuthority true c = false
  not_slash : Url.isSlash c = false
  not_at : c ≠ '@'

theorem standsInPlace {c : Char} (h : isPlaceChar c = true) : StandsInPlace c := by
  obtain ⟨visible, inside_uri, inside_url, not_slash, not_at⟩ :=
    Text.forall_ascii (P := fun c => isPlaceChar c = true → 33 ≤ c.toNat ∧
      Uri.endsAuthority c = false ∧ Url.endsAuthority true c = false ∧ Url.isSlash c = false ∧
      c ≠ '@') (by decide +kernel) (ascii_of_isPlaceChar h) h
  exact ⟨visible, inside_uri, inside_url, not_slash, not_at⟩

/-! ## The host -/

namespace HostLabel

variable (label : HostLabel)

theorem isNameChar_of_mem : ∀ c ∈ label.chars, isNameChar c = true := by
  intro c hc
  rcases label.plain c hc with h | h | rfl
  · simp [isNameChar, h]
  · simp [isNameChar, h]
  · rfl

theorem point_notMem : '.' ∉ label.chars := by
  intro hpoint
  rcases label.plain '.' hpoint with h | h | h <;> exact absurd h (by decide)

theorem isCoded_eq_false : DomainName.isCoded label.chars = false := by
  rw [Bool.eq_false_iff, ne_eq, DomainName.isCoded, List.isPrefixOf_iff_prefix]
  exact label.uncoded

section

variable (labels : List HostLabel)

theorem isNameChar_of_mem_joined : ∀ c ∈ joined labels, isNameChar c = true := by
  apply Text.forall_mem_intercalate (P := fun c => isNameChar c = true) rfl
  intro part hpart
  obtain ⟨label, -, rfl⟩ := List.mem_map.1 hpart
  exact label.isNameChar_of_mem

theorem colon_notMem_joined : ':' ∉ joined labels :=
  fun hcolon => (standsInName (isNameChar_of_mem_joined labels ':' hcolon)).not_colon rfl

theorem open_notMem_joined : '[' ∉ joined labels :=
  fun hopen => (standsInName (isNameChar_of_mem_joined labels '[' hopen)).not_open rfl

variable {labels}

theorem pieces_joined (h : labels ≠ []) :
    Text.pieces '.' (joined labels) = labels.map HostLabel.chars := by
  apply Text.pieces_intercalate
  · simpa using h
  · intro part hpart
    obtain ⟨label, -, rfl⟩ := List.mem_map.1 hpart
    exact label.point_notMem

theorem joined_ne_nil (h : labels ≠ []) : joined labels ≠ [] := by
  intro hnil
  have hpieces := pieces_joined h
  rw [hnil] at hpieces
  obtain ⟨label, hlabel⟩ := List.exists_mem_of_ne_nil labels h
  have hempty : label.chars ∈ Text.pieces '.' [] := hpieces ▸ List.mem_map_of_mem hlabel
  obtain ⟨c, hc, -⟩ := label.first_letter
  rw [List.mem_singleton.1 hempty] at hc
  cases hc

/-- The last label starts with a letter, so that it is no number. -/
theorem endsInNumber_joined (h : labels ≠ []) :
    Address.Numeric.endsInNumber (joined labels) = false := by
  obtain ⟨c, hc, hlower⟩ := (labels.getLast h).first_letter
  have hlast : (Text.pieces '.' (joined labels)).getLast? = some (labels.getLast h).chars := by
    rw [pieces_joined h, List.getLast?_map, List.getLast?_eq_some_getLast h]
    rfl
  exact Address.Numeric.endsInNumber_of_letter hlast hc
    (Bool.or_eq_true_iff.2 (Or.inr hlower))

theorem readWeb_joined (h : labels ≠ []) :
    Url.HostPart.readWeb (joined labels) = .ok (.domain (String.ofList (joined labels))) := by
  have hchars := isNameChar_of_mem_joined labels
  have hdomain : ∀ c ∈ joined labels, Url.HostPart.isDomainChar c = true :=
    fun c hc => (standsInName (hchars c hc)).domain
  refine Url.HostPart.readWeb_of_name (joined_ne_nil h) hdomain ?_ (endsInNumber_joined h)
  refine Url.HostPart.readDomain_of_plain hdomain
    (fun c hc => (standsInName (hchars c hc)).small) ?_
  intro part hpart
  rw [pieces_joined h] at hpart
  obtain ⟨label, -, rfl⟩ := List.mem_map.1 hpart
  exact label.isCoded_eq_false

end

end HostLabel

namespace WrittenHost

variable (host : WrittenHost)

theorem chars_address (ip : Address.Ipv6) :
    (address ip).chars = '[' :: (ip.toGroupText.toList ++ [']']) := by
  simp [chars, Url.HostPart.toText]

theorem readWeb_chars : ∃ part, Url.HostPart.readWeb host.chars = .ok part ∧
    part.toText = String.ofList host.chars := by
  cases host with
  | name labels some_label => exact ⟨_, HostLabel.readWeb_joined some_label, rfl⟩
  | address ip =>
      rw [chars_address]
      refine ⟨_, Url.HostPart.readWeb_of_address ip, ?_⟩
      rw [← String.toList_inj, String.toList_ofList]
      simp [Url.HostPart.toText]

theorem isPlaceChar_of_mem : ∀ c ∈ host.chars, isPlaceChar c = true := by
  cases host with
  | name labels some_label =>
      exact fun c hc => (standsInName (HostLabel.isNameChar_of_mem_joined labels c hc)).place
  | address ip =>
      rw [chars_address]
      intro c hc
      simp only [List.mem_cons, List.mem_append, List.not_mem_nil, or_false] at hc
      rcases hc with rfl | hc | rfl
      · rfl
      · rcases ip.mem_toGroupText c hc with h | rfl
        · simp [isPlaceChar, h]
        · rfl
      · rfl

theorem chars_ne_nil : host.chars ≠ [] := by
  cases host with
  | name labels some_label => exact HostLabel.joined_ne_nil some_label
  | address ip =>
      rw [chars_address]
      exact List.cons_ne_nil _ _

theorem stripBrackets_chars :
    Host.stripBrackets (String.ofList host.chars) = String.ofList host.bare := by
  rw [Host.stripBrackets, String.toList_ofList]
  cases host with
  | name labels some_label =>
      split
      case h_1 rest heq =>
          have hopen : '[' ∈ (name labels some_label).chars := heq ▸ List.mem_cons_self
          exact absurd hopen (HostLabel.open_notMem_joined labels)
      case h_2 => rfl
  | address ip =>
      rw [chars_address]
      simp [bare]

/-! ### In a request target -/

theorem isPlain_of_port {rest : List Char} (h : ∀ c ∈ rest, c.isDigit = true ∨ c = ':') :
    ∀ c ∈ rest, Uri.isPlain c = true ∨ c = ':' := by
  intro c hc
  refine (h c hc).imp_left fun hdigit => ?_
  simp [Uri.isPlain, Char.isAlphanum, hdigit]

theorem checkAuthority_chars {rest : List Char} (h : ∀ c ∈ rest, c.isDigit = true ∨ c = ':')
    (hcount : rest.count ':' ≤ 1) : Uri.checkAuthority (host.chars ++ rest) = .ok () := by
  have hplain := isPlain_of_port h
  cases host with
  | name labels some_label =>
      have hname := HostLabel.isNameChar_of_mem_joined labels
      apply Uri.checkAuthority_plain
      · intro c hc
        rcases List.mem_append.1 hc with hc | hc
        · exact Or.inl (standsInName (hname c hc)).plain
        · exact hplain c hc
      · have hcolon : ':' ∉ (name labels some_label).chars := HostLabel.colon_notMem_joined labels
        rw [List.count_append, List.count_eq_zero_of_not_mem hcolon]
        omega
  | address ip =>
      rw [chars_address, List.cons_append, List.append_assoc, List.singleton_append]
      refine Uri.checkAuthority_bracketed ?_ (Nat.le_succ_of_le ip.count_toGroupText) hplain hcount
      intro c hc
      refine (ip.mem_toGroupText c hc).imp_left fun h => ?_
      simp [Uri.isPlain, h]

theorem close_notMem_toGroupText (ip : Address.Ipv6) : ']' ∉ ip.toGroupText.toList := by
  intro hclose
  rcases ip.mem_toGroupText ']' hclose with h | h <;> exact absurd h (by decide)

theorem authorityHost_chars {rest : List Char} (h : ∀ c ∈ rest, c.isDigit = true ∨ c = ':')
    (hhead : ∀ c ∈ rest.head?, c = ':') :
    Uri.authorityHost (host.chars ++ rest) = host.chars := by
  have hat : '@' ∉ host.chars ++ rest := by
    intro hat
    rcases List.mem_append.1 hat with hat | hat
    · exact (standsInPlace (host.isPlaceChar_of_mem '@' hat)).not_at rfl
    · rcases h '@' hat with hat | hat <;> exact absurd hat (by decide)
  cases host with
  | name labels some_label =>
      refine Uri.authorityHost_of_name hat ?_ (HostLabel.colon_notMem_joined labels) hhead
      intro hopen
      rcases List.mem_append.1 hopen with hopen | hopen
      · exact HostLabel.open_notMem_joined labels hopen
      · rcases h '[' hopen with hopen | hopen <;> exact absurd hopen (by decide)
  | address ip =>
      rw [chars_address, List.cons_append, List.append_assoc, List.singleton_append] at hat ⊢
      exact Uri.authorityHost_of_bracketed hat (close_notMem_toGroupText ip)

theorem authorityPort?_chars : Uri.authorityPort? host.chars = none := by
  cases host with
  | name labels some_label =>
      exact Uri.authorityPort?_of_colon_notMem (HostLabel.colon_notMem_joined labels)
  | address ip =>
      rw [chars_address, ← List.cons_append]
      exact Uri.authorityPort?_of_bracketed _

/-! ### In a URL -/

theorem takeHost_chars {rest : List Char}
    (hrest : ∀ c ∈ rest.head?, c = ':' ∨ Url.endsAuthority true c = true) :
    Url.takeHost true false (host.chars ++ rest) = (host.chars, rest) := by
  have hend : ∀ c ∈ host.chars, Url.endsAuthority true c = false :=
    fun c hc => (standsInPlace (host.isPlaceChar_of_mem c hc)).inside_url
  cases host with
  | name labels some_label =>
      exact Url.takeHost_of_name hend (HostLabel.colon_notMem_joined labels)
        (HostLabel.open_notMem_joined labels) hrest
  | address ip =>
      rw [chars_address] at hend ⊢
      rw [List.cons_append, List.append_assoc, List.singleton_append]
      refine Url.takeHost_of_address ?_ (close_notMem_toGroupText ip) hrest
      intro c hc
      exact hend c (List.mem_cons_of_mem _ (List.mem_append_left _ hc))

end WrittenHost

/-! ## Addresses -/

/-- The parts of a text `scheme://host:port/path`, where the port and the path may be missing. -/
structure WebAddress where
  secure : Bool
  host : WrittenHost
  digits : Option (List Char)
  digits_decimal : ∀ written ∈ digits, ∀ c ∈ written, c.isDigit = true
  digits_small : ∀ written ∈ digits, Nat.ofDigitChars 10 written 0 ≤ 65535
  path : List Char
  path_absolute : ∀ c ∈ path.head?, c = '/'
  path_plain : ∀ c ∈ path, c = '/' ∨ c.isLower = true

namespace WebAddress

def scheme (address : WebAddress) : String :=
  if address.secure then "https" else "http"

def portChars (address : WebAddress) : List Char :=
  address.digits.elim [] (':' :: ·)

def text (address : WebAddress) : String :=
  String.ofList (address.scheme.toList ++
    ("://".toList ++ (address.host.chars ++ address.portChars ++ address.path)))

/-- The port that is written; a colon without digits behind it writes none. -/
def writtenPort? (address : WebAddress) : Option UInt16 :=
  match address.digits with
  | some (first :: more) => some (UInt16.ofNat (Nat.ofDigitChars 10 (first :: more) 0))
  | _ => none

/-- The port that is written, or else the one that the scheme stands for. -/
def port (address : WebAddress) : UInt16 :=
  address.writtenPort?.getD (if address.secure then 443 else 80)

def connection (address : WebAddress) : Host :=
  ⟨String.ofList address.host.bare, address.port⟩

end WebAddress

structure StandsInPath (c : Char) : Prop where
  visible : 33 ≤ c.toNat
  taken : Uri.isPathChar c = true
  inside : (c != '?' && c != '#') = true
  not_at : c ≠ '@'

theorem standsInPath {c : Char} (h : c = '/' ∨ c.isLower = true) : StandsInPath c := by
  have hascii : c.toNat < 128 := by
    rcases h with rfl | h
    · decide
    · rw [Text.isLower_iff] at h
      omega
  obtain ⟨visible, taken, inside, not_at⟩ :=
    Text.forall_ascii (P := fun c => c = '/' ∨ c.isLower = true → 33 ≤ c.toNat ∧
      Uri.isPathChar c = true ∧ (c != '?' && c != '#') = true ∧ c ≠ '@') (by decide +kernel)
      hascii h
  exact ⟨visible, taken, inside, not_at⟩

namespace WebAddress

variable (address : WebAddress)

theorem scheme_cases : address.scheme = "http" ∨ address.scheme = "https" := by
  rw [scheme]
  cases address.secure <;> simp

theorem mem_portChars : ∀ c ∈ address.portChars, c.isDigit = true ∨ c = ':' := by
  rw [portChars]
  cases hdigits : address.digits with
  | none => simp
  | some digits =>
      intro c hc
      rcases List.mem_cons.1 hc with rfl | hc
      · exact Or.inr rfl
      · exact Or.inl (address.digits_decimal digits hdigits c hc)

theorem head?_portChars : ∀ c ∈ address.portChars.head?, c = ':' := by
  rw [portChars]
  cases address.digits with
  | none => simp
  | some digits => simp

theorem count_portChars : address.portChars.count ':' ≤ 1 := by
  rw [portChars]
  cases hdigits : address.digits with
  | none => simp
  | some digits =>
      have hcolon : ':' ∉ digits := fun hcolon =>
        absurd (address.digits_decimal digits hdigits ':' hcolon) (by decide)
      simp [List.count_eq_zero_of_not_mem hcolon]

/-- Digits are read as the port that they write, or as no port if there are none. -/
theorem number?_digits {digits : List Char} (h : digits ∈ address.digits) :
    (Text.number? 10 digits = none ∧ address.writtenPort? = none) ∨
      ∃ number < 65536, Text.number? 10 digits = some number ∧
        address.writtenPort? = some (UInt16.ofNat number) := by
  rw [writtenPort?, Option.mem_def.1 h]
  cases digits with
  | nil => exact Or.inl ⟨rfl, rfl⟩
  | cons first more =>
      have hread := Text.numberFrom?_of_isDigit (address.digits_decimal _ h) 0
      exact Or.inr ⟨_, Nat.lt_succ_of_le (address.digits_small _ h), hread, rfl⟩

theorem authorityPort?_eq :
    Uri.authorityPort? (address.host.chars ++ address.portChars) = address.writtenPort? := by
  rw [portChars]
  cases hdigits : address.digits with
  | none =>
      rw [Option.elim_none, List.append_nil, writtenPort?, hdigits]
      exact address.host.authorityPort?_chars
  | some digits =>
      have hdecimal := address.digits_decimal digits hdigits
      rw [Option.elim_some, Uri.authorityPort?_append_colon _ hdecimal,
        Uri.portNumber?_of_isDigit hdecimal]
      rcases address.number?_digits hdigits with ⟨hnone, hport⟩ | ⟨number, hlt, hsome, hport⟩
      · rw [hnone, hport]
        rfl
      · rw [hsome, hport]
        exact if_pos hlt

theorem readTail_eq :
    Url.readTail (address.portChars ++ address.path) = .ok address.writtenPort? := by
  have hpath : ∀ c ∈ address.path.head?, Url.endsAuthority true c = true := by
    intro c hc
    rw [address.path_absolute c hc]
    rfl
  rw [portChars]
  cases hdigits : address.digits with
  | none =>
      rw [Option.elim_none, List.nil_append, writtenPort?, hdigits, Url.readTail]
      rintro rest hcolon
      exact absurd (address.path_absolute ':' (by rw [hcolon]; rfl)) (by decide)
  | some digits =>
      rw [Option.elim_some, List.cons_append, Url.readTail,
        Url.readPort_append (address.digits_decimal digits hdigits) hpath]
      rcases address.number?_digits hdigits with ⟨hnone, hport⟩ | ⟨number, hlt, hsome, hport⟩
      · rw [hnone, hport]
      · rw [hsome, hport]
        exact if_pos hlt

theorem isPlaceChar_of_mem :
    ∀ c ∈ address.host.chars ++ address.portChars, isPlaceChar c = true := by
  intro c hc
  rcases List.mem_append.1 hc with hc | hc
  · exact address.host.isPlaceChar_of_mem c hc
  · rcases address.mem_portChars c hc with h | rfl
    · simp [isPlaceChar, Char.isAlphanum, h]
    · rfl

theorem toList_text : address.text.toList = address.scheme.toList ++
    ("://".toList ++ (address.host.chars ++ address.portChars ++ address.path)) :=
  String.toList_ofList

theorem visible_text : ∀ c ∈ address.text.toList, 33 ≤ c.toNat := by
  have hscheme : ∀ c ∈ address.scheme.toList ++ "://".toList, 33 ≤ c.toNat := by
    rcases address.scheme_cases with h | h <;> rw [h] <;>
      exact List.all_iff_forall_prop.1 (by decide +kernel)
  rw [toList_text, ← List.append_assoc]
  intro c hc
  rcases List.mem_append.1 hc with hc | hc
  · exact hscheme c hc
  · rcases List.mem_append.1 hc with hc | hc
    · exact (standsInPlace (address.isPlaceChar_of_mem c hc)).visible
    · exact (standsInPath (address.path_plain c hc)).visible

/-! ### The two readings -/

theorem parse_uri (hsize : address.text.utf8ByteSize ≤ 65534) :
    ∃ uri, Uri.parse address.text = .ok uri ∧ uri.scheme = some address.scheme ∧
      uri.host? = some (String.ofList address.host.chars) ∧
      uri.port? = address.writtenPort? := by
  refine ⟨_, Uri.parse_web address.scheme_cases hsize address.toList_text ?_ ?_ ?_ ?_ ?_ ?_, rfl,
    ?_, ?_⟩
  · exact List.append_ne_nil_of_left_ne_nil address.host.chars_ne_nil _
  · exact fun c hc => (standsInPlace (address.isPlaceChar_of_mem c hc)).inside_uri
  · exact address.host.checkAuthority_chars address.mem_portChars address.count_portChars
  · intro c hc
    rw [address.path_absolute c hc]
    rfl
  · exact fun c hc => (standsInPath (address.path_plain c hc)).inside
  · rw [List.all_eq_true]
    exact fun c hc => (standsInPath (address.path_plain c hc)).taken
  · simp only [Uri.host?, Option.map_some, String.toList_ofList]
    rw [address.host.authorityHost_chars address.mem_portChars address.head?_portChars]
  · simp only [Uri.port?, Option.bind_some, String.toList_ofList]
    exact address.authorityPort?_eq

theorem parse_url :
    ∃ part : Url.HostPart, part.toText = String.ofList address.host.chars ∧
      Url.parse address.text =
        .ok (Url.withPort address.scheme (some part) address.writtenPort?) := by
  obtain ⟨part, hread, htext⟩ := address.host.readWeb_chars
  have hhost : ∀ c ∈ address.host.chars, isPlaceChar c = true := address.host.isPlaceChar_of_mem
  have htoList : address.text.toList = address.scheme.toList ++
      ("://".toList ++ (address.host.chars ++ (address.portChars ++ address.path))) := by
    rw [toList_text, List.append_assoc address.host.chars]
  have hat : '@' ∉ address.host.chars ++ (address.portChars ++ address.path) := by
    rw [← List.append_assoc]
    intro hat
    rcases List.mem_append.1 hat with hat | hat
    · exact (standsInPlace (address.isPlaceChar_of_mem '@' hat)).not_at rfl
    · exact (standsInPath (address.path_plain '@' hat)).not_at rfl
  have htail : ∀ c ∈ (address.portChars ++ address.path).head?,
      c = ':' ∨ Url.endsAuthority true c = true := by
    intro c hc
    cases hport : address.portChars with
    | nil =>
        rw [hport, List.nil_append] at hc
        rw [address.path_absolute c hc]
        exact Or.inr rfl
    | cons first rest =>
        rw [hport] at hc
        exact Or.inl (address.head?_portChars c (by rw [hport]; exact hc))
  refine ⟨part, htext, ?_⟩
  rw [Url.parse_web address.scheme_cases address.visible_text htoList
    (Text.head?_append_of_ne_nil address.host.chars_ne_nil
      (fun c hc => (standsInPlace (hhost c hc)).not_slash) _)
    hat address.host.chars_ne_nil (address.host.takeHost_chars htail), hread, readTail_eq]
  rfl

theorem ofUri?_eq {uri : Uri} (h : Uri.parse address.text = .ok uri) :
    Host.ofUri? uri = some address.connection := by
  obtain ⟨uri', hparse, hscheme, hhost, hport⟩ :=
    address.parse_uri (Uri.utf8ByteSize_of_parse h)
  obtain rfl : uri' = uri := Except.ok.inj (hparse.symm.trans h)
  have hassumed : Host.assumedPort uri' = if address.secure then 443 else 80 := by
    rw [Host.assumedPort, hscheme, scheme]
    cases address.secure <;> rfl
  rw [Host.ofUri?, hhost, hport, hassumed, ← port, Option.map_some,
    address.host.stripBrackets_chars, connection]

theorem ofUrl?_eq {url : Url} (h : Url.parse address.text = .ok url) :
    Host.ofUrl? url = some address.connection := by
  obtain ⟨part, htext, hparse⟩ := address.parse_url
  obtain rfl := Except.ok.inj (hparse.symm.trans h)
  have husual : Url.usualPort? address.scheme = some (if address.secure then 443 else 80) := by
    rw [scheme]
    cases address.secure <;> rfl
  have hport : (Url.withPort address.scheme (some part) address.writtenPort?).effectivePort? =
      some address.port := by
    rw [Url.effectivePort?_withPort, husual, port]
    cases address.writtenPort? <;> rfl
  have hname : (Url.withPort address.scheme (some part) address.writtenPort?).hostText? =
      some (String.ofList address.host.chars) := by
    rw [← htext]
    rfl
  rw [Host.ofUrl?, hport, hname, connection]
  dsimp only
  rw [address.host.stripBrackets_chars]

/-- An address of the web names one host, whether it is read as a request target or as a URL: the
host that is written, without brackets, with the port that is written or else the one that its
scheme stands for. Every such text is a URL, and a request target unless it is too long for one. -/
theorem readings_agree :
    (∀ uri url, Uri.parse address.text = .ok uri → Url.parse address.text = .ok url →
        Host.ofUri? uri = some address.connection ∧ Host.ofUrl? url = some address.connection ∧
          Route.ofUri? uri = some (.direct address.connection) ∧
          Route.ofUrl? url = some (.direct address.connection)) ∧
      (∃ url, Url.parse address.text = .ok url) ∧
      ((∃ uri, Uri.parse address.text = .ok uri) ↔ address.text.utf8ByteSize ≤ 65534) := by
  refine ⟨?_, ?_, ?_⟩
  · intro uri url huri hurl
    have hofUri := address.ofUri?_eq huri
    have hofUrl := address.ofUrl?_eq hurl
    refine ⟨hofUri, hofUrl, ?_, ?_⟩
    · rw [Route.ofUri?, hofUri]
      rfl
    · rw [Route.ofUrl?, hofUrl]
      rfl
  · obtain ⟨part, -, hparse⟩ := address.parse_url
    exact ⟨_, hparse⟩
  · constructor
    · rintro ⟨uri, hparse⟩
      exact Uri.utf8ByteSize_of_parse hparse
    · intro hsize
      obtain ⟨uri, hparse, -⟩ := address.parse_uri hsize
      exact ⟨uri, hparse⟩

def numbered : WebAddress where
  secure := true
  host := .address ⟨[0x2001, 0xdb8, 0, 0, 0, 0, 0, 1], rfl⟩
  digits := some "08443".toList
  digits_decimal := by
    intro written hwritten
    rw [← Option.some.inj hwritten]
    exact List.all_eq_true.1 (by decide +kernel)
  digits_small := by decide +kernel
  path := "/a".toList
  path_absolute := by simp
  path_plain := List.all_iff_forall_prop.1 (by decide +kernel)

theorem readings_agree_numbered :
    numbered.text = "https://[2001:db8::1]:08443/a" ∧
      numbered.connection = ⟨"2001:db8::1", 8443⟩ ∧
      ∃ uri url, Uri.parse "https://[2001:db8::1]:08443/a" = .ok uri ∧
        Url.parse "https://[2001:db8::1]:08443/a" = .ok url ∧
        Host.ofUri? uri = some ⟨"2001:db8::1", 8443⟩ ∧
        Host.ofUrl? url = some ⟨"2001:db8::1", 8443⟩ := by
  have htext : numbered.text = "https://[2001:db8::1]:08443/a" := by decide +kernel
  have hconnection : numbered.connection = ⟨"2001:db8::1", 8443⟩ := by decide +kernel
  obtain ⟨hagree, ⟨url, hurl⟩, huri⟩ := readings_agree numbered
  obtain ⟨uri, huri⟩ := huri.2 (by rw [htext]; decide +kernel)
  obtain ⟨hofUri, hofUrl, -, -⟩ := hagree uri url huri hurl
  rw [htext] at huri hurl
  rw [hconnection] at hofUri hofUrl
  exact ⟨htext, hconnection, uri, url, huri, hurl, hofUri, hofUrl⟩

def unnumbered : WebAddress where
  secure := false
  host := .name
    [⟨"a-1".toList, ⟨'a', rfl, rfl⟩, List.all_iff_forall_prop.1 (by decide +kernel),
        by decide +kernel⟩,
      ⟨"example".toList, ⟨'e', rfl, rfl⟩, List.all_iff_forall_prop.1 (by decide +kernel),
        by decide +kernel⟩]
    (List.cons_ne_nil _ _)
  digits := some []
  digits_decimal := by simp
  digits_small := by decide +kernel
  path := []
  path_absolute := by simp
  path_plain := by simp

example : unnumbered.text = "http://a-1.example:" ∧
    unnumbered.connection = ⟨"a-1.example", 80⟩ := by
  decide +kernel

end WebAddress

end NegotiateAuth
