import Std.Data.String.ToNat
import Superiority.Bsn.TraceSpans

/-!
# Paths

A path is put together from the labels on the way to a value. Two values have different paths when
the parts of one value can be told apart by their labels, also by those that are continued: a member
called `a.b` is not told apart from the member `b` of a member `a`.

**`paths_of_tree`** – when all labels are told apart, entries of a tree with the same path are
entries of the same value.
-/

namespace Superiority.Bsn

/-! ## Labels that are told apart -/

/-- One of the labels is the other, or the other with further steps. -/
def Clash (a b : String) : Prop :=
  a = b ∨ (∃ rest, Segment rest ∧ a = b ++ rest) ∨ ∃ rest, Segment rest ∧ b = a ++ rest

theorem Clash.symm {a b : String} (h : Clash a b) : Clash b a := by
  rcases h with rfl | h | h
  · exact Or.inl rfl
  · exact Or.inr (Or.inr h)
  · exact Or.inr (Or.inl h)

theorem clash_append {a b c : String} : Clash (c ++ a) (c ++ b) ↔ Clash a b := by
  simp [Clash, String.append_assoc, String.append_right_inj]

/-- What may follow the path of a value: nothing, or further steps. -/
def Rest (rest : String) : Prop := rest = "" ∨ Segment rest

theorem segment_iff {s : String} :
    Segment s ↔ ∃ cs, s.toList = '.' :: cs ∨ s.toList = '[' :: cs := by
  constructor
  · rintro ⟨name, rfl | rfl⟩
    · exact ⟨name.toList, Or.inl (by simp)⟩
    · exact ⟨name.toList, Or.inr (by simp)⟩
  · rintro ⟨cs, h | h⟩
    · exact ⟨String.ofList cs, Or.inl (String.toList_inj.1 (by simp [h]))⟩
    · exact ⟨String.ofList cs, Or.inr (String.toList_inj.1 (by simp [h]))⟩

theorem Segment.append {s : String} (h : Segment s) (t : String) : Segment (s ++ t) := by
  obtain ⟨name, rfl | rfl⟩ := h
  · exact ⟨name ++ t, Or.inl String.append_assoc⟩
  · exact ⟨name ++ t, Or.inr String.append_assoc⟩

/-- Labels that are told apart begin different paths. -/
theorem clash_of_append {a b x y : String} (hx : Rest x) (hy : Rest y) (h : a ++ x = b ++ y) :
    Clash a b := by
  have hfront : ∀ {a b x y : String} {as : List Char}, Rest x → b.toList = a.toList ++ as →
      x.toList = as ++ y.toList → Clash a b := by
    intro a b x y as hx hb hxs
    cases as with
    | nil => exact Or.inl (String.toList_inj.1 (by simp [hb]))
    | cons c cs =>
      rcases hx with rfl | hx
      · simp at hxs
      · obtain ⟨rest, hrest⟩ := segment_iff.1 hx
        rw [hxs] at hrest
        refine Or.inr (Or.inr ⟨String.ofList (c :: cs), segment_iff.2 ⟨cs, ?_⟩, ?_⟩)
        · rcases hrest with hrest | hrest
          · exact Or.inl (by simp [(List.cons.inj hrest).1])
          · exact Or.inr (by simp [(List.cons.inj hrest).1])
        · exact String.toList_inj.1 (by simp [hb])
  have hlist := congrArg String.toList h
  rw [String.toList_append, String.toList_append] at hlist
  rcases List.append_eq_append_iff.1 hlist with ⟨as, hb, hxs⟩ | ⟨as, ha, hys⟩
  · exact hfront hx hb hxs
  · exact (hfront hy ha hys).symm

/-- One of two labels that clash begins the other. -/
theorem Clash.isPrefix {a b : String} (h : Clash a b) :
    a.toList <+: b.toList ∨ b.toList <+: a.toList := by
  rcases h with rfl | ⟨rest, -, rfl⟩ | ⟨rest, -, rfl⟩
  · exact Or.inl List.prefix_rfl
  · exact Or.inr ⟨rest.toList, String.toList_append.symm⟩
  · exact Or.inl ⟨rest.toList, String.toList_append.symm⟩

/-- The indices of an array are told apart. -/
theorem not_clash_index {i j : Nat} (hne : i ≠ j) : ¬ Clash s!"[{i}]" s!"[{j}]" := by
  -- Everything between the brackets is a digit.
  have hdigits : ∀ (n : Nat) (rest : List Char),
      (n.repr.toList ++ ']' :: rest).takeWhile Char.isDigit = n.repr.toList := by
    intro n rest
    rw [List.takeWhile_append_of_pos, List.takeWhile_cons_of_neg (by decide), List.append_nil]
    intro c hc
    rw [Nat.toList_repr] at hc
    exact Nat.isDigit_of_mem_toDigits (by decide) (by decide) hc
  have hlist : ∀ (n : Nat) (rest : String),
      (s!"[{n}]" ++ rest).toList = '[' :: (n.repr.toList ++ ']' :: rest.toList) := by
    intro n rest
    simp [toString]
  have hindex : ∀ {i j : Nat} {x y : String}, s!"[{i}]" ++ x = s!"[{j}]" ++ y → i = j := by
    intro i j x y h
    have h := congrArg String.toList h
    rw [hlist, hlist] at h
    have hsame := congrArg (List.takeWhile Char.isDigit) (List.cons.inj h).2
    rw [hdigits, hdigits] at hsame
    exact Nat.repr_injective (String.toList_inj.1 hsame)
  rintro (h | ⟨rest, -, h⟩ | ⟨rest, -, h⟩)
  · exact hne (hindex (congrArg (· ++ "") h))
  · exact hne (hindex (x := "") (by simpa using h))
  · exact hne (hindex (y := "") (by simpa using h.symm))

/-- The labels of the parts of one value. -/
def ToldApart (labels : List String) : Prop := labels.Pairwise fun a b => ¬ Clash a b

/-! ## The paths of a tree -/

section forest

variable {codec : Codec} {path : String} {depth start stop : Nat}

/-- An entry of a forest is for one of its values or under it. -/
theorem Forest.under {labels : List String} {places : List Place}
    (h : Forest codec path depth start stop labels places) :
    ∀ p ∈ places, ∃ label ∈ labels, ∃ rest, Rest rest ∧ p.path = path ++ label ++ rest := by
  induction h with
  | nil => exact fun _ hp => absurd hp List.not_mem_nil
  | @cons path label depth start stop s e lead own labels parts inner rest hstart hcounts hparts
      hinner hrest ihinner ihrest =>
    intro p hp
    rcases mem_forest_cons hp with rfl | hp | hp
    · exact ⟨label, List.mem_cons_self, "", Or.inl rfl, (String.append_empty).symm⟩
    · obtain ⟨part, hpart, further, -, hpath⟩ := ihinner p hp
      have hsegment := (segment_of_parts hparts part hpart).append further
      exact ⟨label, List.mem_cons_self, part ++ further, Or.inr hsegment,
        hpath.trans String.append_assoc⟩
    · obtain ⟨other, hother, further, hfurther, hpath⟩ := ihrest p hp
      exact ⟨other, List.mem_cons_of_mem _ hother, further, hfurther, hpath⟩

/-- The parts of a value have longer paths than the value. -/
theorem Forest.path_ne {parts : List String} {places : List Place}
    (h : Forest codec path depth start stop parts places) (hparts : Parts codec parts) :
    ∀ p ∈ places, p.path ≠ path := by
  intro p hp heq
  obtain ⟨part, hpart, further, -, hpath⟩ := h.under p hp
  rw [heq, String.append_assoc] at hpath
  have hempty : part ++ further = "" :=
    (String.append_right_inj path).1 (hpath.symm.trans String.append_empty.symm)
  obtain ⟨cs, hcs⟩ := segment_iff.1 ((segment_of_parts hparts part hpart).append further)
  simp [hempty] at hcs

/-- The values behind a value have other paths than the value and its parts. -/
theorem Forest.path_ne_behind {label : String} {labels : List String} {places : List Place}
    (h : Forest codec path depth start stop labels places)
    (hlabel : ∀ other ∈ labels, ¬ Clash label other) {rest : String} (hrest : Rest rest) :
    ∀ p ∈ places, p.path ≠ path ++ label ++ rest := by
  intro p hp heq
  obtain ⟨other, hother, further, hfurther, hpath⟩ := h.under p hp
  rw [heq, String.append_assoc, String.append_assoc, String.append_right_inj] at hpath
  exact hlabel other hother (clash_of_append hrest hfurther hpath)

/-- The parts of a value have other paths than the values behind it and their parts. -/
theorem Forest.path_ne_inner {label : String} {parts labels : List String} {s e : Nat}
    {inner rest : List Place} (hinner : Forest codec (path ++ label) (depth + 1) s e parts inner)
    (hparts : Parts codec parts) (hrest : Forest codec path depth start stop labels rest)
    (hlabel : ∀ other ∈ labels, ¬ Clash label other) :
    ∀ p ∈ inner, ∀ q ∈ rest, p.path ≠ q.path := by
  intro p hp q hq heq
  obtain ⟨part, hpart, further, -, hpath⟩ := hinner.under p hp
  have hsegment := (segment_of_parts hparts part hpart).append further
  exact hrest.path_ne_behind hlabel (Or.inr hsegment) q hq
    (heq.symm.trans (hpath.trans String.append_assoc))

/-- The labels of the parts of every value are told apart. -/
def AllToldApart (codec : Codec) : Prop := ∀ parts, Parts codec parts → ToldApart parts

/-- Entries with one path are entries of one value. -/
theorem Forest.place_eq (hparts : AllToldApart codec) {labels : List String} {places : List Place}
    (h : Forest codec path depth start stop labels places) (hlabels : ToldApart labels) :
    ∀ p ∈ places, ∀ q ∈ places, p.path = q.path → p = q := by
  induction h with
  | nil => exact fun _ hp => absurd hp List.not_mem_nil
  | @cons path label depth start stop s e lead own labels parts inner rest hstart hcounts htypes
      hinner hrest ihinner ihrest =>
    obtain ⟨hlabel, hbehind⟩ := List.pairwise_cons.1 hlabels
    have hown := hinner.path_ne htypes
    have hself : ∀ q ∈ rest, q.path ≠ path ++ label := by
      simpa using hrest.path_ne_behind hlabel (Or.inl rfl)
    have hother := hinner.path_ne_inner htypes hrest hlabel
    intro p hp q hq heq
    rcases mem_forest_cons hp with rfl | hp | hp <;> rcases mem_forest_cons hq with rfl | hq | hq
    · rfl
    · exact absurd heq.symm (hown q hq)
    · exact absurd heq.symm (hself q hq)
    · exact absurd heq (hown p hp)
    · exact ihinner (hparts _ htypes) p hp q hq heq
    · exact absurd heq (hother p hp q hq)
    · exact absurd heq (hself p hp)
    · exact absurd heq.symm (hother q hq p hp)
    · exact ihrest hbehind p hp q hq heq

/-- A value is entered as often as `Counts` allows. -/
theorem Forest.count_le (hparts : AllToldApart codec) {bound : Nat}
    (hbound : ∀ lead own, Counts codec lead own → lead + own ≤ bound) {labels : List String}
    {places : List Place} (h : Forest codec path depth start stop labels places)
    (hlabels : ToldApart labels) (p : String) : (places.map Place.path).count p ≤ bound := by
  induction h with
  | nil => simp
  | @cons path label depth start stop s e lead own labels parts inner rest hstart hcounts htypes
      hinner hrest ihinner ihrest =>
    obtain ⟨hlabel, hbehind⟩ := List.pairwise_cons.1 hlabels
    have hlead := hbound lead own hcounts
    have hinnerLe := ihinner (hparts _ htypes)
    have hrestLe := ihrest hbehind
    have hself : path ++ label ∉ rest.map Place.path := by
      intro hmem
      obtain ⟨q, hq, hpath⟩ := List.mem_map.1 hmem
      exact hrest.path_ne_behind hlabel (Or.inl rfl) q hq (by simpa using hpath)
    have hown : path ++ label ∉ inner.map Place.path := by
      intro hmem
      obtain ⟨q, hq, hpath⟩ := List.mem_map.1 hmem
      exact hinner.path_ne htypes q hq hpath
    have hother : p ∈ inner.map Place.path → p ∉ rest.map Place.path := by
      intro hmem hmem'
      obtain ⟨q, hq, rfl⟩ := List.mem_map.1 hmem
      obtain ⟨q', hq', hpath⟩ := List.mem_map.1 hmem'
      exact hinner.path_ne_inner htypes hrest hlabel q hq q' hq' hpath.symm
    simp only [List.map_append, List.map_replicate, List.count_append, List.count_replicate]
    by_cases hp : path ++ label = p
    · subst hp
      rw [List.count_eq_zero.2 hown, List.count_eq_zero.2 hself]
      simpa using hlead
    · have hne : ((path ++ label) == p) = false := by simpa using hp
      simp only [hne]
      by_cases hmem : p ∈ inner.map Place.path
      · rw [List.count_eq_zero.2 (hother hmem)]
        simpa using hinnerLe
      · rw [List.count_eq_zero.2 hmem]
        simpa using hrestLe

theorem paths_of_tree {path : String} {depth start stop bound : Nat} {places : List Place}
    (hparts : AllToldApart codec) (hbound : ∀ lead own, Counts codec lead own → lead + own ≤ bound)
    (h : Whole codec path depth start stop places) :
    (∀ p ∈ places, ∀ q ∈ places, p.path = q.path → p = q) ∧
      ∀ p, (places.map Place.path).count p ≤ bound := by
  have hroot : Whole codec ("" ++ path) depth start stop places := by rwa [String.empty_append]
  have hforest := hroot.single le_rfl le_rfl
  have hlabels : ToldApart [path] := List.pairwise_singleton _ _
  exact ⟨hforest.place_eq hparts hlabels, hforest.count_le hparts hbound hlabels⟩

theorem counts_le_two {lead own : Nat} (h : Counts codec lead own) : lead + own ≤ 2 := by
  have := h.lead_le
  have := h.own_le
  omega

theorem counts_le_one (hcustom : ¬ HasCustom codec) {lead own : Nat} (h : Counts codec lead own) :
    lead + own ≤ 1 := by
  have hlead : lead = 0 := by
    by_contra hne
    exact hcustom (h.custom hne)
  have := h.own_le
  omega

end forest

end Superiority.Bsn
