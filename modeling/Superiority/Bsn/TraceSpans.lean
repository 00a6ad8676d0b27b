import Superiority.Bsn.Trace

/-!
# The spans of a trace nest

The trees that a decoding pushes have spans that lie in each other or side by side, because the
parts of a value are read one behind the other. Sorting the entries only puts them in another order.

**`trace_nests`** – decoding with a trace ends as decoding without one does, and the trace is a tree
of nested spans around the bits that were consumed, sorted by start, then depth, then the widest
first.
-/

namespace Superiority.Bsn

variable {codec : Codec} {path : String} {depth start stop : Nat}

/-! ## Paths -/

/-- One step of a path. -/
def Segment (label : String) : Prop := ∃ name, label = "." ++ name ∨ label = "[" ++ name

theorem segment_of_parts {parts : List String} (h : Parts codec parts) :
    ∀ label ∈ parts, Segment label := by
  intro label hlabel
  cases h with
  | none => exact absurd hlabel List.not_mem_nil
  | array count =>
    obtain ⟨index, -, rfl⟩ := List.mem_map.1 hlabel
    exact ⟨toString index ++ "]", Or.inr (String.append_assoc ..)⟩
  | optional =>
    rw [List.mem_singleton.1 hlabel]
    exact ⟨"value", Or.inl rfl⟩
  | choice index =>
    rw [List.mem_singleton.1 hlabel]
    exact ⟨"variant[" ++ toString index ++ "]", Or.inl (by simp [toString, ← String.append_assoc])⟩
  | struct _ _ =>
    obtain ⟨member, -, rfl⟩ := List.mem_map.1 hlabel
    exact ⟨member.label, Or.inl rfl⟩
  | layout _ _ =>
    obtain ⟨entry, -, hlabel⟩ := List.mem_flatMap.1 hlabel
    unfold layoutLabels at hlabel
    split at hlabel
    · exact absurd hlabel List.not_mem_nil
    · next member _ =>
      rcases List.mem_append.1 hlabel with hlabel | hlabel
      · split at hlabel
        · exact absurd hlabel List.not_mem_nil
        · rw [List.mem_singleton.1 hlabel]
          exact ⟨"filler_before_" ++ member.label, Or.inl (by simp [← String.append_assoc])⟩
      · rw [List.mem_singleton.1 hlabel]
        exact ⟨member.label, Or.inl rfl⟩
  | club _ _ _ _ =>
    obtain ⟨position, -, rfl⟩ := List.mem_map.1 hlabel
    exact ⟨_, Or.inl rfl⟩
  | category =>
    fin_cases hlabel
    · exact ⟨"m_name", Or.inl rfl⟩
    · exact ⟨"generated", Or.inl rfl⟩
    · exact ⟨"m_id", Or.inl rfl⟩
    · exact ⟨"m_sortOrder", Or.inl rfl⟩

/-! ## Spans -/

/-- The first span lies in the second. -/
def Within (p q : Place) : Prop := q.startBit ≤ p.startBit ∧ p.endBit ≤ q.endBit

/-- The spans have no bit in common. -/
def Apart (p q : Place) : Prop := p.endBit ≤ q.startBit ∨ q.endBit ≤ p.startBit

/-- A part of a value: one level below it, its path one step longer, and in its span. -/
structure PartOf (p q : Place) : Prop where
  depth : p.depth = q.depth + 1
  path : ∃ label, Segment label ∧ p.path = q.path ++ label
  within : Within p q

theorem mem_forest_cons {p q : Place} {lead own : Nat} {inner rest : List Place} :
    p ∈ List.replicate lead q ++ inner ++ List.replicate own q ++ rest →
      p = q ∨ p ∈ inner ∨ p ∈ rest := by
  simp only [List.mem_append, List.mem_replicate]
  tauto

/-- The place of a value is among those of its tree. -/
theorem mem_head {q : Place} {lead own : Nat} {inner rest : List Place} (h : 0 < lead + own) :
    q ∈ List.replicate lead q ++ inner ++ List.replicate own q ++ rest := by
  simp only [List.mem_append, List.mem_replicate]
  have hsome : lead ≠ 0 ∨ own ≠ 0 := by omega
  tauto

/-- Every span of a forest lies between its bits. -/
theorem Forest.within {labels : List String} {places : List Place}
    (h : Forest codec path depth start stop labels places) :
    ∀ p ∈ places, start ≤ p.startBit ∧ p.startBit ≤ p.endBit ∧ p.endBit ≤ stop ∧
      depth ≤ p.depth := by
  induction h with
  | nil => exact fun _ hp => absurd hp List.not_mem_nil
  | cons hstart _ _ hinner hrest ihinner ihrest =>
    intro p hp
    have hinnerLe := hinner.le
    have hrestLe := hrest.le
    rcases mem_forest_cons hp with rfl | hp | hp
    · exact ⟨hstart, hinnerLe, hrestLe, le_rfl⟩
    · have hp := ihinner p hp
      omega
    · have hp := ihrest p hp
      omega

/-- An entry of a forest belongs to one of the values themselves or is a part of another entry. -/
theorem Forest.inside {labels : List String} {places : List Place}
    (h : Forest codec path depth start stop labels places) :
    ∀ p ∈ places, (p.depth = depth ∧ ∃ label ∈ labels, p.path = path ++ label) ∨
      ∃ q ∈ places, PartOf p q := by
  induction h with
  | nil => exact fun _ hp => absurd hp List.not_mem_nil
  | @cons path label depth start stop s e lead own labels parts inner rest hstart hcounts hparts
      hinner hrest ihinner ihrest =>
    intro p hp
    rcases mem_forest_cons hp with rfl | hp | hp
    · exact Or.inl ⟨rfl, label, List.mem_cons_self, rfl⟩
    · refine Or.inr ?_
      rcases ihinner p hp with ⟨hdepth, part, hpart, hpath⟩ | ⟨q, hq, hpartOf⟩
      · have hspan := hinner.within p hp
        exact ⟨_, mem_head hcounts.some, hdepth, ⟨part, segment_of_parts hparts part hpart, hpath⟩,
          hspan.1, hspan.2.2.1⟩
      · exact ⟨q, by simp [hq], hpartOf⟩
    · rcases ihrest p hp with ⟨hdepth, part, hpart, hpath⟩ | ⟨q, hq, hpartOf⟩
      · exact Or.inl ⟨hdepth, part, List.mem_cons_of_mem _ hpart, hpath⟩
      · exact Or.inr ⟨q, by simp [hq], hpartOf⟩

/-- Any two spans of a forest lie one in the other or apart. -/
theorem Forest.laminar {labels : List String} {places : List Place}
    (h : Forest codec path depth start stop labels places) :
    ∀ p ∈ places, ∀ q ∈ places, Within p q ∨ Within q p ∨ Apart p q := by
  induction h with
  | nil => exact fun _ hp => absurd hp List.not_mem_nil
  | cons hstart _ _ hinner hrest ihinner ihrest =>
    have hwithin := hinner.within
    have hbehind := hrest.within
    have hle := hinner.le
    intro p hp q hq
    simp only [Within, Apart]
    rcases mem_forest_cons hp with rfl | hp | hp <;> rcases mem_forest_cons hq with rfl | hq | hq
    · exact Or.inl ⟨le_rfl, le_rfl⟩
    · have hq := hwithin q hq
      exact Or.inr (Or.inl ⟨hq.1, hq.2.2.1⟩)
    · have hq := hbehind q hq
      exact Or.inr (Or.inr (Or.inl hq.1))
    · have hp := hwithin p hp
      exact Or.inl ⟨hp.1, hp.2.2.1⟩
    · exact ihinner p hp q hq
    · have hp := hwithin p hp
      have hq := hbehind q hq
      exact Or.inr (Or.inr (Or.inl (hp.2.2.1.trans hq.1)))
    · have hp := hbehind p hp
      exact Or.inr (Or.inr (Or.inr hp.1))
    · have hp := hbehind p hp
      have hq := hwithin q hq
      exact Or.inr (Or.inr (Or.inr (hq.2.2.1.trans hp.1)))
    · exact ihrest p hp q hq

/-! ## The trace -/

/-- A trace of the value between two bits. -/
structure Nests (codec : Codec) (start stop : Nat) (fields : List DecodedField) : Prop where
  tree : ∃ places, (fields.map DecodedField.place).Perm places ∧
    Whole codec "value" 0 start stop places
  root : ∃ f ∈ fields, f.depth = 0
  spans : ∀ f ∈ fields, f.depth = 0 → f.path = "value" ∧ f.startBit = start ∧ f.endBit = stop
  inside : ∀ f ∈ fields, f.depth ≠ 0 → ∃ g ∈ fields, PartOf f.place g.place
  laminar : ∀ f ∈ fields, ∀ g ∈ fields,
    Within f.place g.place ∨ Within g.place f.place ∨ Apart f.place g.place
  ordered : fields.Pairwise fun f g => f.startBit < g.startBit ∨ f.startBit = g.startBit ∧
    (f.depth < g.depth ∨ f.depth = g.depth ∧ g.endBit ≤ f.endBit)

theorem fieldOrder_iff (f g : DecodedField) :
    fieldOrder f g = true ↔ f.startBit < g.startBit ∨ f.startBit = g.startBit ∧
      (f.depth < g.depth ∨ f.depth = g.depth ∧ g.endBit ≤ f.endBit) := by
  simp [fieldOrder]

theorem pairwise_sorted (fields : List DecodedField) :
    (fields.mergeSort fieldOrder).Pairwise fun f g => f.startBit < g.startBit ∨
      f.startBit = g.startBit ∧ (f.depth < g.depth ∨ f.depth = g.depth ∧ g.endBit ≤ f.endBit) := by
  refine (List.pairwise_mergeSort (fun f g h => ?_) (fun f g => ?_) fields).imp
    fun h => (fieldOrder_iff _ _).1 h
  · simp only [fieldOrder_iff]
    omega
  · rw [Bool.or_eq_true]
    simp only [fieldOrder_iff]
    omega

/-- The sorted entries of one tree. -/
theorem nests_of_whole {fields : List DecodedField}
    (h : Whole codec "value" 0 start stop (fields.map DecodedField.place)) :
    Nests codec start stop (fields.mergeSort fieldOrder) := by
  have hperm := List.mergeSort_perm fields fieldOrder
  have hroot : Whole codec ("" ++ "value") 0 start stop (fields.map DecodedField.place) := h
  have hforest := hroot.single (le_refl start) (le_refl stop)
  have hmem : ∀ f ∈ fields.mergeSort fieldOrder, f.place ∈ fields.map DecodedField.place :=
    fun f hf => List.mem_map_of_mem (hperm.mem_iff.1 hf)
  have hback : ∀ p ∈ fields.map DecodedField.place,
      ∃ f ∈ fields.mergeSort fieldOrder, f.place = p := by
    intro p hp
    obtain ⟨f, hf, rfl⟩ := List.mem_map.1 hp
    exact ⟨f, hperm.mem_iff.2 hf, rfl⟩
  obtain ⟨lead, inner, own, parts, hplaces, hcounts, hparts, hinner⟩ := h
  refine ⟨⟨_, hperm.map _, lead, inner, own, parts, hplaces, hcounts, hparts, hinner⟩, ?_, ?_, ?_,
    fun f hf g hg => hforest.laminar _ (hmem f hf) _ (hmem g hg), pairwise_sorted fields⟩
  · have hhead : (⟨"value", 0, start, stop⟩ : Place) ∈ List.replicate lead _ ++ inner ++
        List.replicate own _ ++ [] := mem_head hcounts.some
    rw [List.append_nil, ← hplaces] at hhead
    obtain ⟨f, hf, hplace⟩ := hback _ hhead
    exact ⟨f, hf, congrArg Place.depth hplace⟩
  · intro f hf hdepth
    have hp := hmem f hf
    rw [hplaces, ← List.append_nil (_ ++ List.replicate own _)] at hp
    rcases mem_forest_cons hp with hplace | hp | hp
    · exact ⟨congrArg Place.path hplace, congrArg Place.startBit hplace,
        congrArg Place.endBit hplace⟩
    · have hdeep := (hinner.within _ hp).2.2.2
      have hdepth : f.place.depth = 0 := hdepth
      omega
    · exact absurd hp List.not_mem_nil
  · intro f hf hdepth
    rcases hforest.inside _ (hmem f hf) with ⟨hzero, -⟩ | ⟨q, hq, hpart⟩
    · exact absurd hzero hdepth
    · obtain ⟨g, hg, rfl⟩ := hback q hq
      exact ⟨g, hg, hpart⟩

/-- **Tracing does not change decoding, and its spans nest.** -/
theorem trace_nests (texts : TraceTexts) (codec : Codec) (fuel : Nat) (typeId : UInt32)
    (r : BitReader) :
    match decodeTracedFrom texts codec fuel typeId r, decodeFrom texts codec fuel typeId r with
    | .done traced s, .done value t => traced.value = value ∧ s = t ∧
        traced.bitCount = s.position - r.position ∧
        Nests codec r.position s.position traced.fields
    | .failed e s, .failed e' t => e = e' ∧ s = t
    | .unfinished, .unfinished => True
    | _, _ => False := by
  have hforth := simulates_decodeAny texts codec (le_refl fuel) true false false typeId "value" 0 r
  have hback := simulates_decodeAny texts codec (le_refl fuel) false true false typeId "value" 0 r
  rw [decodeTracedFrom_apply, decodeFrom_apply]
  cases htraced : decodeAny texts codec fuel true false typeId "value" 0 r with
  | done a s =>
    rw [htraced] at hforth
    obtain ⟨b, hplain, hvalue, -⟩ := hforth
    rw [hplain]
    obtain ⟨value, fields⟩ := a
    exact ⟨hvalue, rfl, rfl,
      nests_of_whole (pushes_decodeAny texts codec fuel _ _ _ _ _ _ _ _ htraced)⟩
  | failed e s =>
    rw [htraced] at hforth
    rw [hforth]
    exact ⟨rfl, rfl⟩
  | unfinished =>
    cases hplain : decodeAny texts codec fuel false false typeId "value" 0 r with
    | done a s =>
      rw [hplain] at hback
      obtain ⟨b, hb, -⟩ := hback
      rw [htraced] at hb
      cases hb
    | failed e s =>
      rw [hplain] at hback
      rw [htraced] at hback
      cases hback
    | unfinished => trivial

end Superiority.Bsn
