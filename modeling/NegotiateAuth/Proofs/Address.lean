import NegotiateAuth.Address
import NegotiateAuth.Proofs.Text

/-! # IPv6 addresses read back

The text of an address in groups is read as that address: the groups on either side of the double
colon are read one by one, and the zeros that it leaves out are filled in again.
-/

namespace NegotiateAuth

namespace Address

namespace Ipv6

section

variable (group : UInt16) (groups : List UInt16)

theorem groupText_ne_nil : groupText group ≠ [] :=
  Nat.toDigits_ne_nil

theorem isAlphanum_of_mem_groupText : ∀ c ∈ groupText group, c.isAlphanum = true :=
  fun c hc => Text.isAlphanum_of_isDigitIn
    (Text.isDigitIn_of_mem_toDigits (by decide) (by decide) c hc)

theorem colon_notMem_groupText : ':' ∉ groupText group :=
  fun hcolon => absurd (isAlphanum_of_mem_groupText group ':' hcolon) (by decide)

theorem readGroup?_groupText : readGroup? (groupText group) = some group := by
  have hlength : (groupText group).length ≤ 4 :=
    (Nat.length_toDigits_le_iff (by decide) (by decide)).2 group.toNat_lt
  rw [readGroup?, if_pos hlength, groupText, Text.number?_toDigits (by decide) (by decide)]
  simp

theorem readPieces?_map_groupText (quadAllowed : Bool) :
    readPieces? quadAllowed (groups.map groupText) = some groups := by
  induction groups with
  | nil => rfl
  | cons group groups ih =>
      cases groups with
      | nil => simp only [List.map_cons, List.map_nil, readPieces?, readGroup?_groupText]
      | cons next groups =>
          rw [List.map_cons] at ih ⊢
          rw [List.map_cons, readPieces?, readGroup?_groupText, ih]
          · rfl
          · simp

theorem groupsText_cons_cons (next : UInt16) :
    groupsText (group :: next :: groups) =
      groupText group ++ ':' :: groupsText (next :: groups) := by
  simp only [groupsText, List.map_cons, List.intercalate_cons_cons, List.append_assoc,
    List.singleton_append]

theorem groupsText_eq_nil_iff : groupsText groups = [] ↔ groups = [] := by
  match groups with
  | [] => simp [groupsText]
  | [group] => simp [groupsText, groupText_ne_nil]
  | group :: next :: groups => simp [groupsText_cons_cons]

theorem readGroups?_groupsText (quadAllowed : Bool) :
    readGroups? quadAllowed (groupsText groups) = some groups := by
  by_cases hnil : groups = []
  · subst hnil
    rfl
  · have hmap : groups.map groupText ≠ [] := by simpa using hnil
    have hcolon : ∀ piece ∈ groups.map groupText, ':' ∉ piece := by
      intro piece hpiece
      obtain ⟨group, -, rfl⟩ := List.mem_map.1 hpiece
      exact colon_notMem_groupText group
    have hne : groupsText groups ≠ [] := mt (groupsText_eq_nil_iff groups).1 hnil
    rw [readGroups?, if_neg (by simpa using hne), groupsText,
      Text.pieces_intercalate hmap hcolon, readPieces?_map_groupText]

end

/-! ## The double colon -/

theorem splitGap?_append {word : List Char} (h : ':' ∉ word) (cs : List Char) :
    splitGap? (word ++ cs) = (splitGap? cs).map fun parts => (word ++ parts.1, parts.2) := by
  induction word with
  | nil => simp
  | cons c word ih =>
      simp only [List.mem_cons, not_or] at h
      rw [List.cons_append, splitGap?, ih h.2]
      · simp [Function.comp_def]
      · rintro rest rfl
        exact absurd rfl h.1

/-- A colon with something else after it starts no double colon. -/
theorem splitGap?_colon_append {word : List Char} (hne : word ≠ []) (h : ':' ∉ word)
    (cs : List Char) :
    splitGap? (':' :: (word ++ cs)) =
      (splitGap? (word ++ cs)).map fun parts => (':' :: parts.1, parts.2) := by
  cases word with
  | nil => exact absurd rfl hne
  | cons c word =>
      rw [List.cons_append, splitGap?]
      rintro rest - hrest
      obtain ⟨rfl, -⟩ := List.cons.inj hrest
      exact h List.mem_cons_self

theorem groupsText_cons (group : UInt16) (groups : List UInt16) :
    ∃ rest, groupsText (group :: groups) = groupText group ++ rest := by
  cases groups with
  | nil => exact ⟨[], by simp [groupsText]⟩
  | cons next groups => exact ⟨_, groupsText_cons_cons group groups next⟩

theorem splitGap?_groupsText_append (groups : List UInt16) (cs : List Char) :
    splitGap? (groupsText groups ++ cs) =
      (splitGap? cs).map fun parts => (groupsText groups ++ parts.1, parts.2) := by
  match groups with
  | [] => simp [groupsText]
  | [group] => simpa [groupsText] using splitGap?_append (colon_notMem_groupText group) cs
  | group :: next :: groups =>
      obtain ⟨rest, hrest⟩ := groupsText_cons next groups
      have hcolon := splitGap?_colon_append (groupText_ne_nil next) (colon_notMem_groupText next)
        (rest ++ cs)
      rw [← List.append_assoc, ← hrest, splitGap?_groupsText_append (next :: groups)] at hcolon
      rw [groupsText_cons_cons, List.append_assoc, List.cons_append,
        splitGap?_append (colon_notMem_groupText group), hcolon]
      simp [Function.comp_def]

/-! ## The run of zeros that is left out -/

theorem zeroRun_split (groups : List UInt16) :
    groups = List.replicate (zeroRun groups) 0 ++ groups.drop (zeroRun groups) := by
  induction groups with
  | nil => rfl
  | cons group rest ih =>
      by_cases hzero : group = 0
      · have hrun : zeroRun (group :: rest) = zeroRun rest + 1 := by simp [zeroRun, hzero]
        rw [hrun, List.replicate_succ, List.cons_append, List.drop_succ_cons, ← ih, hzero]
      · have hrun : zeroRun (group :: rest) = 0 := by simp [zeroRun, hzero]
        rw [hrun]
        rfl

/-- The run that is found stands at its place and is made of zeros. -/
theorem longestRun_split (place : Nat) (groups : List UInt16) :
    ∃ before after, groups = before ++ List.replicate (longestRun place groups).2 0 ++ after ∧
      (longestRun place groups).1 = place + before.length := by
  induction groups generalizing place with
  | nil => exact ⟨[], [], rfl, rfl⟩
  | cons group rest ih =>
      obtain ⟨before, after, hrest, hplace⟩ := ih (place + 1)
      rw [longestRun]
      split
      · exact ⟨[], _, zeroRun_split _, rfl⟩
      · refine ⟨group :: before, after, ?_, ?_⟩
        · rw [List.cons_append, List.cons_append, ← hrest]
        · rw [hplace, List.length_cons]
          omega

theorem ofGroups?_eq_some (ip : Ipv6) : ofGroups? ip.groups = some ip :=
  dif_pos ip.eight_groups

theorem read?_groupsText (ip : Ipv6) : read? (groupsText ip.groups) = some ip := by
  have hsplit := splitGap?_groupsText_append ip.groups []
  rw [List.append_nil] at hsplit
  rw [read?, hsplit, splitGap?, Option.map_none]
  simp only [readGroups?_groupsText, Option.bind_some, ofGroups?_eq_some]

/-- The double colon stands for as many zeros as are missing. -/
theorem read?_gap (ip : Ipv6) {before after : List UInt16} {size : Nat} (h : 0 < size)
    (hgroups : ip.groups = before ++ List.replicate size 0 ++ after) :
    read? (groupsText before ++ ':' :: ':' :: groupsText after) = some ip := by
  have hlength := ip.eight_groups
  rw [hgroups] at hlength
  simp only [List.length_append, List.length_replicate] at hlength
  have hwritten : before.length + after.length < 8 := by omega
  have hmissing : 8 - (before.length + after.length) = size := by omega
  rw [read?, splitGap?_groupsText_append, splitGap?, Option.map_some, List.append_nil]
  simp only [readGroups?_groupsText]
  rw [if_pos hwritten, hmissing, ← hgroups, ofGroups?_eq_some]

/-- The text of an address has one of two forms: all groups, or a double colon for some zeros. -/
theorem toGroupText_cases (ip : Ipv6) :
    ip.toGroupText.toList = groupsText ip.groups ∨
      ∃ before after size, 2 ≤ size ∧
        ip.groups = before ++ List.replicate size 0 ++ after ∧
        ip.toGroupText.toList = groupsText before ++ ':' :: ':' :: groupsText after := by
  obtain ⟨before, after, hgroups, hplace⟩ := longestRun_split 0 ip.groups
  rw [toGroupText]
  generalize longestRun 0 ip.groups = run at hgroups hplace
  obtain ⟨place, size⟩ := run
  obtain rfl : place = before.length := hplace.trans (Nat.zero_add _)
  by_cases hshort : size < 2
  · exact Or.inl (by rw [if_pos hshort, String.toList_ofList])
  · have htake : ip.groups.take before.length = before := by
      rw [hgroups, List.append_assoc, List.take_left]
    have hdrop : ip.groups.drop (before.length + size) = after := by
      rw [hgroups]
      exact List.drop_left' (by simp)
    refine Or.inr ⟨before, after, size, Nat.le_of_not_lt hshort, hgroups, ?_⟩
    rw [if_neg hshort, String.toList_ofList, htake, hdrop]
    simp

/-- An address is read back from its text. -/
theorem read?_toGroupText (ip : Ipv6) : read? ip.toGroupText.toList = some ip := by
  rcases toGroupText_cases ip with htext | ⟨before, after, size, hsize, hgroups, htext⟩
  · rw [htext, read?_groupsText]
  · rw [htext, read?_gap ip (by omega) hgroups]

/-! ## The characters of the text -/

theorem mem_groupsText (groups : List UInt16) :
    ∀ c ∈ groupsText groups, c.isAlphanum = true ∨ c = ':' := by
  apply Text.forall_mem_intercalate (P := fun c => c.isAlphanum = true ∨ c = ':') (Or.inr rfl)
  intro part hpart c hc
  obtain ⟨group, -, rfl⟩ := List.mem_map.1 hpart
  exact Or.inl (isAlphanum_of_mem_groupText group c hc)

theorem count_groupsText (groups : List UInt16) :
    (groupsText groups).count ':' = groups.length - 1 := by
  match groups with
  | [] => rfl
  | [group] => simp [groupsText, List.count_eq_zero_of_not_mem (colon_notMem_groupText group)]
  | group :: next :: groups =>
      rw [groupsText_cons_cons, List.count_append, List.count_cons_self,
        List.count_eq_zero_of_not_mem (colon_notMem_groupText group),
        count_groupsText (next :: groups)]
      simp

theorem mem_toGroupText (ip : Ipv6) :
    ∀ c ∈ ip.toGroupText.toList, c.isAlphanum = true ∨ c = ':' := by
  rcases toGroupText_cases ip with htext | ⟨before, after, size, -, -, htext⟩
  · rw [htext]
    exact mem_groupsText ip.groups
  · rw [htext]
    intro c hc
    simp only [List.mem_append, List.mem_cons] at hc
    rcases hc with hc | rfl | rfl | hc
    · exact mem_groupsText before c hc
    · exact Or.inr rfl
    · exact Or.inr rfl
    · exact mem_groupsText after c hc

/-- At most seven colons separate the groups. -/
theorem count_toGroupText (ip : Ipv6) : ip.toGroupText.toList.count ':' ≤ 7 := by
  have hlength := ip.eight_groups
  rcases toGroupText_cases ip with htext | ⟨before, after, size, hsize, hgroups, htext⟩
  · rw [htext, count_groupsText]
    omega
  · rw [hgroups] at hlength
    simp only [List.length_append, List.length_replicate] at hlength
    rw [htext, List.count_append, List.count_cons_self, List.count_cons_self, count_groupsText,
      count_groupsText]
    omega

end Ipv6

end Address

end NegotiateAuth
