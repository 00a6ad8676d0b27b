import Superiority.Desktop.Transcript

/-!
# Nobody is lost in a transcript

The ledger of a run keeps beside the view what the view forgets: the lines that were trimmed from
each transcript, the handles of those who were reported to have come or gone, and the number of the
line that the open digest was opened on. A line's number is its place among all lines its tab ever
held, so it does not change when the transcript is trimmed.

* **`foldsAndRefers_iff`** – every arrival and departure is in one line and only the oldest lines
  go; the open digest denotes the line it was opened on exactly in the runs that trim no transcript
  in which a digest is open.
-/

namespace Superiority.Desktop

/-! ## Who is in a line -/

namespace ChatLine

/-- Those of whom the line says that they came, or that they left. -/
def handles (kind : MembershipKind) : ChatLine → List UInt32
  | .membership _ _ told members _ => if told = kind then members.map (·.handle) else []
  | .digest _ _ _ joined left =>
    match kind with
    | .joined => joined.map (·.handle)
    | .left => left.map (·.handle)
  | _ => []

/-- What becomes of a line that stays: it may take in more members. -/
inductive Grows : ChatLine → ChatLine → Prop
  | same (line : ChatLine) : Grows line line
  | membership {time time' at_ at' kind members members' expanded expanded'} :
      members.map UiUser.handle <+: members'.map UiUser.handle →
      Grows (.membership time at_ kind members expanded)
        (.membership time' at' kind members' expanded')
  | digest {time at_ at' opened joined joined' left left'} :
      joined.map UiUser.handle <+: joined'.map UiUser.handle →
      left.map UiUser.handle <+: left'.map UiUser.handle →
      Grows (.digest time at_ opened joined left) (.digest time at' opened joined' left')

theorem Grows.trans {first second third : ChatLine} (h : Grows first second)
    (h' : Grows second third) : Grows first third := by
  cases h with
  | same => exact h'
  | membership hm =>
    cases h' with
    | same => exact .membership hm
    | membership hm' => exact .membership (hm.trans hm')
  | digest hj hl =>
    cases h' with
    | same => exact .digest hj hl
    | digest hj' hl' => exact .digest (hj.trans hj') (hl.trans hl')

end ChatLine

/-- Those of whom the lines say that they came, or that they left, in their order. -/
def told (kind : MembershipKind) (lines : List ChatLine) : List UInt32 :=
  lines.flatMap (·.handles kind)

@[simp] theorem told_nil (kind : MembershipKind) : told kind [] = [] := rfl

@[simp] theorem told_append (kind : MembershipKind) (lines more : List ChatLine) :
    told kind (lines ++ more) = told kind lines ++ told kind more :=
  List.flatMap_append

@[simp] theorem told_singleton (kind : MembershipKind) (line : ChatLine) :
    told kind [line] = line.handles kind := by
  simp [told]

/-! ## The ledger -/

namespace SuperiorityView

def transcript (view : SuperiorityView) (index : Nat) : List ChatLine :=
  (view.tabs[index]?.map (·.transcript)).getD []

/-- Whose coming or going the input reports in a tab. A line from elsewhere reports its own. -/
def reports (view : SuperiorityView) (input : Input) (index : Nat) (kind : MembershipKind) :
    List UInt32 :=
  if index < view.tabs.length then
    match input with
    | .membership reported told member _ _ =>
      if reported = index ∧ told = kind then [member.handle] else []
    | .line reported line _ => if reported = index then line.handles kind else []
    | _ => []
  else []

end SuperiorityView

namespace ChannelState

/-- The last line with the member in it, when it takes the member in. -/
def fold (tab : ChannelState) (kind : MembershipKind) (member : UiUser) (now : Instant)
    (stamp : String) : Option ChatLine :=
  tab.transcript.getLast?.bind fun line =>
    if highTrafficOnline < tab.users.length then line.gather kind member now
    else line.merge kind member now stamp

/-- The tab grew in place. -/
structure Kept (tab : ChannelState) (reports : MembershipKind → List UInt32)
    (tab' : ChannelState) : Prop where
  id : tab'.id = tab.id
  grows : List.Forall₂ ChatLine.Grows tab.transcript tab'.transcript
  told : ∀ kind, told kind tab'.transcript = Desktop.told kind tab.transcript ++ reports kind

/-- The tab got a line. -/
def Pushed (tab : ChannelState) (reports : MembershipKind → List UInt32)
    (tab' : ChannelState) : Prop :=
  tab'.id = tab.id ∧ ∃ line : ChatLine,
    tab'.transcript = (tab.push line).transcript ∧ ∀ kind, line.handles kind = reports kind

end ChannelState

namespace SuperiorityView

/-- The tab that the input appends a line to. -/
def appendsTo (view : SuperiorityView) : Input → Option Nat
  | .membership index kind member now stamp =>
    match view.tabs[index]? with
    | none => none
    | some tab => if (tab.fold kind member now stamp).isSome then none else some index
  | .line index _ _ => if index < view.tabs.length then some index else none
  | .error _ _ _ => if view.activeTab < view.tabs.length then some view.activeTab else none
  | _ => none

/-! ## What an input does to a tab -/

theorem modifyTab_tab (view : SuperiorityView) (index : Nat)
    (edit : ChannelState → ChannelState) (i : Nat) :
    (view.modifyTab index edit).tabs[i]? =
      view.tabs[i]?.map (if index = i then edit else id) := by
  simp only [modifyTab, List.getElem?_modify]
  by_cases h : index = i
  · simp [h]
  · simp [h]

theorem appendChatLine_tab (view : SuperiorityView) (index : Nat) (line : ChatLine)
    (now : Instant) (i : Nat) :
    (view.appendChatLine index line now).tabs[i]? =
      view.tabs[i]?.map (if index = i then ChannelState.push line else id) := by
  rw [← modifyTab_tab]
  unfold appendChatLine
  cases h : view.tabs[index]? with
  | none =>
    have hlen : view.tabs.length ≤ index := List.getElem?_eq_none_iff.1 h
    simp [modifyTab, List.modify_eq_self hlen]
  | some tab =>
    dsimp only
    split <;> rfl

/-- A view whose tab at `index` has been flagged, and nothing else. -/
def Flagged (view : SuperiorityView) (index : Nat) (pending : Bool) (flagged : SuperiorityView) :
    Prop :=
  ∀ i, flagged.tabs[i]? = view.tabs[i]?.map
    (if index = i then fun tab => { tab with identitiesPending := pending } else id)

theorem replaceLast_flagged {view flagged : SuperiorityView} {index : Nat} {pending : Bool}
    (h : view.Flagged index pending flagged) (line : ChatLine) (i : Nat) :
    (flagged.replaceLast index line).tabs[i]? = view.tabs[i]?.map
      (if index = i then fun tab =>
        { tab with
          transcript := tab.transcript.dropLast ++ [line], identitiesPending := pending }
      else id) := by
  rw [replaceLast, modifyTab_tab, h i, Option.map_map]
  by_cases hi : index = i
  · simp only [hi, if_true]
    rfl
  · simp [hi]

theorem appendChatLine_flagged {view flagged : SuperiorityView} {index : Nat} {pending : Bool}
    (h : view.Flagged index pending flagged) (line : ChatLine) (now : Instant) (i : Nat) :
    (flagged.appendChatLine index line now).tabs[i]? = view.tabs[i]?.map
      (if index = i then fun tab =>
        ({ tab with identitiesPending := pending } : ChannelState).push line
      else id) := by
  rw [appendChatLine_tab, h i, Option.map_map]
  by_cases hi : index = i
  · simp only [hi, if_true]
    rfl
  · simp [hi]

/-- The member is flagged and then put into the last line, or a line is opened for them. -/
theorem appendMembership_tab {view : SuperiorityView} {index : Nat} {tab : ChannelState}
    (htab : view.tabs[index]? = some tab) (kind : MembershipKind) (member : UiUser)
    (now : Instant) (stamp : String) :
    ∃ pending : Bool, ∃ line : ChatLine,
      (∀ told, line.handles told = if told = kind then [member.handle] else []) ∧
      ∀ i, (view.appendMembership index kind member now stamp).tabs[i]? =
        view.tabs[i]?.map (if index = i then
          (match tab.fold kind member now stamp with
          | some folded => fun tab =>
            { tab with
              transcript := tab.transcript.dropLast ++ [folded], identitiesPending := pending }
          | none => fun tab => ({ tab with identitiesPending := pending } : ChannelState).push line)
          else id) := by
  -- whether the tab waits for identities after this
  obtain ⟨pending, flagged, hflagged, hview⟩ : ∃ pending flagged,
      view.Flagged index pending flagged ∧
      (if member.portrait.isNone ∨ member.clanTag.isNone then
        view.modifyTab index fun tab => { tab with identitiesPending := true }
      else view) = flagged := by
    by_cases h : member.portrait.isNone ∨ member.clanTag.isNone
    · refine ⟨true, _, ?_, rfl⟩
      intro i
      rw [if_pos h, modifyTab_tab]
    · refine ⟨tab.identitiesPending, _, ?_, rfl⟩
      intro i
      rw [if_neg h]
      by_cases hi : index = i
      · subst hi
        simp [htab]
      · simp [hi]
  have hfirst : flagged.tabs[index]? = some { tab with identitiesPending := pending } := by
    simp [hflagged index, htab]
  unfold appendMembership
  simp only [htab, hview]
  by_cases hbusy : highTrafficOnline < tab.users.length
  · have hfold : tab.fold kind member now stamp =
        tab.transcript.getLast?.bind (·.gather kind member now) := by
      simp [ChannelState.fold, hbusy]
    rw [if_pos hbusy, hfold]
    simp only [appendDigest, hfirst]
    refine ⟨pending, if kind = .joined then .digest stamp now now [member] []
      else .digest stamp now now [] [member], ?_, ?_⟩
    · intro told
      cases kind <;> cases told <;> simp [ChatLine.handles]
    · intro i
      cases tab.transcript.getLast?.bind (·.gather kind member now) with
      | none => cases kind <;> exact appendChatLine_flagged hflagged _ now i
      | some folded => exact replaceLast_flagged hflagged folded i
  · have hfold : tab.fold kind member now stamp =
        tab.transcript.getLast?.bind (·.merge kind member now stamp) := by
      simp [ChannelState.fold, hbusy]
    rw [if_neg hbusy, hfold]
    refine ⟨pending, .membership stamp now kind [member] false, ?_, ?_⟩
    · intro told
      simp [ChatLine.handles, eq_comm]
    · intro i
      cases tab.transcript.getLast?.bind (·.merge kind member now stamp) with
      | none => exact appendChatLine_flagged hflagged _ now i
      | some folded => exact replaceLast_flagged hflagged folded i

end SuperiorityView

/-! ## What is kept -/

namespace ChatLine

theorem merge_grows {line folded : ChatLine} {kind : MembershipKind} {member : UiUser}
    {now : Instant} {stamp : String} (h : line.merge kind member now stamp = some folded) :
    line.Grows folded ∧ ∀ told, folded.handles told =
      line.handles told ++ if told = kind then [member.handle] else [] := by
  cases line with
  | membership time at_ previous members expanded =>
    cases expanded with
    | true => simp [merge] at h
    | false =>
      simp only [merge, Option.ite_none_right_eq_some, Option.some.injEq] at h
      obtain ⟨⟨rfl, -⟩, rfl⟩ := h
      refine ⟨.membership (by simp), ?_⟩
      intro told
      by_cases hk : told = previous <;> simp [handles, hk, Ne.symm]
  | _ => simp [merge] at h

theorem gather_grows {line folded : ChatLine} {kind : MembershipKind} {member : UiUser}
    {now : Instant} (h : line.gather kind member now = some folded) :
    line.Grows folded ∧ ∀ told, folded.handles told =
      line.handles told ++ if told = kind then [member.handle] else [] := by
  cases line with
  | digest time at_ opened joined left =>
    simp only [gather, Option.ite_none_right_eq_some] at h
    obtain ⟨-, h⟩ := h
    cases kind with
    | joined =>
      cases h
      refine ⟨.digest (by simp) (by simp), ?_⟩
      intro told
      cases told <;> simp [handles]
    | left =>
      cases h
      refine ⟨.digest (by simp) (by simp), ?_⟩
      intro told
      cases told <;> simp [handles]
  | _ => simp [gather] at h

@[simp] theorem toggle_handles (line : ChatLine) (kind : MembershipKind) :
    line.toggle.handles kind = line.handles kind := by
  cases line <;> rfl

theorem toggle_grows (line : ChatLine) : line.Grows line.toggle := by
  cases line with
  | membership time at_ kind members expanded => exact .membership (List.prefix_refl _)
  | _ => exact .same _

end ChatLine

@[simp] theorem adoptIdentity_handle (roster : List UiUser) (member : UiUser) :
    (adoptIdentity roster member).1.handle = member.handle := by
  unfold adoptIdentity
  split_ifs
  · rfl
  · cases roster.find? (·.handle = member.handle) with
    | none => rfl
    | some current =>
      dsimp only
      split_ifs <;> rfl

namespace ChatLine

theorem adopt_members (roster members : List UiUser) :
    (members.map fun member => (adoptIdentity roster member).1).map UiUser.handle =
      members.map UiUser.handle := by
  simp

@[simp] theorem adopt_handles (roster : List UiUser) (line : ChatLine) (kind : MembershipKind) :
    (line.adopt roster).handles kind = line.handles kind := by
  cases line with
  | membership => simp only [adopt, handles, adopt_members]
  | digest => cases kind <;> simp only [adopt, handles, adopt_members]
  | _ => rfl

theorem adopt_extends (roster members : List UiUser) :
    members.map UiUser.handle <+:
      (members.map fun member => (adoptIdentity roster member).1).map UiUser.handle := by
  simp only [adopt_members, List.prefix_rfl]

theorem adopt_grows (roster : List UiUser) (line : ChatLine) : line.Grows (line.adopt roster) := by
  cases line with
  | membership => exact .membership (adopt_extends roster _)
  | digest => exact .digest (adopt_extends roster _) (adopt_extends roster _)
  | _ => exact .same _

end ChatLine

theorem grows_refl (lines : List ChatLine) : List.Forall₂ ChatLine.Grows lines lines :=
  List.forall₂_same.2 fun line _ => .same line

theorem grows_trans {first second third : List ChatLine}
    (h : List.Forall₂ ChatLine.Grows first second)
    (h' : List.Forall₂ ChatLine.Grows second third) :
    List.Forall₂ ChatLine.Grows first third := by
  induction h generalizing third with
  | nil => exact h'
  | cons hline _ ih =>
    cases h' with
    | cons hline' h' => exact .cons (hline.trans hline') (ih h')

theorem told_map {edit : ChatLine → ChatLine} {kind : MembershipKind}
    (h : ∀ line : ChatLine, (edit line).handles kind = line.handles kind)
    (lines : List ChatLine) : told kind (lines.map edit) = told kind lines := by
  simp [told, List.flatMap_map, h]

theorem told_modify {edit : ChatLine → ChatLine} {kind : MembershipKind}
    (h : ∀ line : ChatLine, (edit line).handles kind = line.handles kind)
    (lines : List ChatLine) (index : Nat) :
    told kind (lines.modify index edit) = told kind lines := by
  induction lines generalizing index with
  | nil => simp
  | cons line lines ih =>
    cases index with
    | zero => simp [told, h]
    | succ index =>
      have := ih index
      simp only [told, List.modify_succ_cons, List.flatMap_cons] at this ⊢
      rw [this]

theorem grows_modify {edit : ChatLine → ChatLine} (h : ∀ line : ChatLine, line.Grows (edit line))
    (lines : List ChatLine) (index : Nat) :
    List.Forall₂ ChatLine.Grows lines (lines.modify index edit) := by
  induction lines generalizing index with
  | nil => simp
  | cons line lines ih =>
    cases index with
    | zero => exact .cons (h line) (grows_refl lines)
    | succ index => exact .cons (.same line) (ih index)

namespace ChannelState

/-- The folded line takes the place of the last. -/
theorem fold_kept {tab : ChannelState} {kind : MembershipKind} {member : UiUser} {now : Instant}
    {stamp : String} {folded : ChatLine} (h : tab.fold kind member now stamp = some folded)
    (pending : Bool) :
    tab.Kept (fun told => if told = kind then [member.handle] else [])
      { tab with
        transcript := tab.transcript.dropLast ++ [folded], identitiesPending := pending } := by
  obtain ⟨line, hlast, hline⟩ := Option.bind_eq_some_iff.1 h
  have hgrows : line.Grows folded ∧ ∀ told, folded.handles told =
      line.handles told ++ if told = kind then [member.handle] else [] := by
    split at hline
    · exact ChatLine.gather_grows hline
    · exact ChatLine.merge_grows hline
  have hsplit : tab.transcript.dropLast ++ [line] = tab.transcript :=
    List.dropLast_append_getLast? line hlast
  refine ⟨rfl, ?_, ?_⟩
  · dsimp only
    nth_rewrite 1 [← hsplit]
    exact List.rel_append (grows_refl _) (.cons hgrows.1 .nil)
  · intro told
    dsimp only
    nth_rewrite 2 [← hsplit]
    simp [hgrows.2]

theorem kept_refl (tab : ChannelState) : tab.Kept (fun _ => []) tab :=
  ⟨rfl, grows_refl _, by simp⟩

theorem adoptTranscriptIdentities_kept (tab : ChannelState) (users : List UiUser) :
    tab.Kept (fun _ => []) ({ tab with users } : ChannelState).adoptTranscriptIdentities := by
  unfold adoptTranscriptIdentities
  split
  · refine ⟨rfl, ?_, ?_⟩
    · exact List.forall₂_map_right_iff.2 (List.forall₂_same.2 fun line _ => line.adopt_grows users)
    · intro kind
      simp [told_map fun line => line.adopt_handles users kind]
  · exact ⟨rfl, grows_refl _, by simp⟩

theorem toggle_kept (tab : ChannelState) (lineIndex : Nat) :
    tab.Kept (fun _ => [])
      { tab with transcript := tab.transcript.modify lineIndex ChatLine.toggle } := by
  refine ⟨rfl, grows_modify ChatLine.toggle_grows _ _, ?_⟩
  intro kind
  simp [told_modify fun line => line.toggle_handles kind]

end ChannelState

namespace SuperiorityView

/-- What an input does to a tab: a line is appended to it, or it grows in place. -/
def Moves (view : SuperiorityView) (input : Input) (i : Nat) (tab tab' : ChannelState) : Prop :=
  if view.appendsTo input = some i then tab.Pushed (view.reports input i) tab'
  else tab.Kept (view.reports input i) tab'

theorem moves_kept {view : SuperiorityView} {input : Input} {i : Nat} {tab tab' : ChannelState}
    (happends : view.appendsTo input ≠ some i) (hreports : ∀ kind, view.reports input i kind = [])
    (h : tab.Kept (fun _ => []) tab') : view.Moves input i tab tab' := by
  have hnone : view.reports input i = fun _ => [] := by
    funext kind
    exact hreports kind
  rwa [Moves, if_neg happends, hnone]

theorem moves_pushed {view : SuperiorityView} {input : Input} {i : Nat} {tab : ChannelState}
    {line : ChatLine} (happends : view.appendsTo input = some i)
    (hline : ∀ kind, line.handles kind = view.reports input i kind) (pending : Bool) :
    view.Moves input i tab
      (({ tab with identitiesPending := pending } : ChannelState).push line) := by
  rw [Moves, if_pos happends]
  exact ⟨rfl, line, rfl, hline⟩

theorem step_tab (view : SuperiorityView) (input : Input) {i : Nat} {tab : ChannelState}
    (h : view.tabs[i]? = some tab) :
    ∃ tab', (view.step input).tabs[i]? = some tab' ∧ view.Moves input i tab tab' := by
  have hi : i < view.tabs.length := (List.getElem?_eq_some_iff.1 h).1
  cases input with
  | membership index kind member now stamp =>
    by_cases hne : index = i
    · subst hne
      obtain ⟨pending, line, hline, hstep⟩ := appendMembership_tab h kind member now stamp
      have hstep := hstep index
      rw [h, Option.map_some, if_pos rfl] at hstep
      refine ⟨_, hstep, ?_⟩
      have hreports : ∀ told, view.reports (.membership index kind member now stamp) index told =
          if told = kind then [member.handle] else [] := by
        intro told
        simp [reports, hi, eq_comm]
      cases hfold : tab.fold kind member now stamp with
      | none =>
        refine moves_pushed (by simp [appendsTo, h, hfold]) ?_ pending
        intro told
        rw [hline told, hreports told]
      | some folded =>
        rw [Moves, if_neg (by simp [appendsTo, h, hfold])]
        rw [funext hreports]
        exact ChannelState.fold_kept hfold pending
    · have hreports : ∀ told,
          view.reports (.membership index kind member now stamp) i told = [] := by
        intro told
        simp [reports, hne]
      cases hindex : view.tabs[index]? with
      | none =>
        exact ⟨tab, by simp [step, appendMembership, hindex, h],
          moves_kept (by simp [appendsTo, hindex]) hreports tab.kept_refl⟩
      | some first =>
        obtain ⟨pending, line, -, hstep⟩ := appendMembership_tab hindex kind member now stamp
        refine ⟨tab, by simpa [step, hne, h] using hstep i, moves_kept ?_ hreports tab.kept_refl⟩
        simp only [appendsTo, hindex]
        split <;> simp [hne]
  | line index line now =>
    refine ⟨_, by rw [step, appendChatLine_tab, h, Option.map_some], ?_⟩
    by_cases hne : index = i
    · subst hne
      rw [if_pos rfl]
      exact moves_pushed (by simp [appendsTo, hi]) (by simp [reports, hi]) tab.identitiesPending
    · rw [if_neg hne]
      refine moves_kept ?_ (by simp [reports, hne]) tab.kept_refl
      simp only [appendsTo]
      split <;> simp [hne]
  | error text now stamp =>
    refine ⟨_, by rw [step, appendErrorLine, appendChatLine_tab, h, Option.map_some], ?_⟩
    by_cases hne : view.activeTab = i
    · rw [if_pos hne]
      refine moves_pushed (by simp [appendsTo, hi, hne]) ?_ tab.identitiesPending
      simp [reports, ChatLine.handles]
    · rw [if_neg hne]
      refine moves_kept ?_ (by simp [reports]) tab.kept_refl
      simp only [appendsTo]
      split <;> simp [hne]
  | digest tabId lineIndex now =>
    refine ⟨tab, ?_, moves_kept (by simp [appendsTo]) (by simp [reports]) tab.kept_refl⟩
    rw [step, toggleDigestExpansion]
    split
    · split_ifs <;> exact h
    · exact h
  | event tabId lineIndex =>
    rw [step, toggleEventExpansion]
    cases hplace : view.place tabId with
    | none =>
      exact ⟨tab, h, moves_kept (by simp [appendsTo]) (by simp [reports]) tab.kept_refl⟩
    | some index =>
      refine ⟨_, by rw [modifyTab_tab, h, Option.map_some], ?_⟩
      refine moves_kept (by simp [appendsTo]) (by simp [reports]) ?_
      split_ifs
      · exact tab.toggle_kept lineIndex
      · exact tab.kept_refl
  | roster index users =>
    refine ⟨_, by rw [step, applyRoster, modifyTab_tab, h, Option.map_some], ?_⟩
    refine moves_kept (by simp [appendsTo]) (by simp [reports]) ?_
    split_ifs
    · exact tab.adoptTranscriptIdentities_kept users
    · exact tab.kept_refl
  | frame now =>
    refine ⟨tab, ?_, moves_kept (by simp [appendsTo]) (by simp [reports]) tab.kept_refl⟩
    rw [step, finishClosing]
    split
    · split_ifs <;> exact h
    · exact h

@[simp] theorem modifyTab_length (view : SuperiorityView) (index : Nat)
    (edit : ChannelState → ChannelState) :
    (view.modifyTab index edit).tabs.length = view.tabs.length := by
  simp [modifyTab]

@[simp] theorem appendChatLine_length (view : SuperiorityView) (index : Nat) (line : ChatLine)
    (now : Instant) : (view.appendChatLine index line now).tabs.length = view.tabs.length := by
  unfold appendChatLine
  cases view.tabs[index]? with
  | none => rfl
  | some tab =>
    dsimp only
    split <;> exact modifyTab_length ..

@[simp] theorem appendDigest_length (view : SuperiorityView) (index : Nat)
    (kind : MembershipKind) (member : UiUser) (now : Instant) (stamp : String) :
    (view.appendDigest index kind member now stamp).tabs.length = view.tabs.length := by
  unfold appendDigest
  cases view.tabs[index]? with
  | none => rfl
  | some tab =>
    dsimp only
    split <;> simp [replaceLast]

theorem step_length (view : SuperiorityView) (input : Input) :
    (view.step input).tabs.length = view.tabs.length := by
  cases input with
  | membership index kind member now stamp =>
    rw [step, appendMembership]
    cases view.tabs[index]? with
    | none => rfl
    | some tab =>
      dsimp only
      split_ifs
      · simp
      · simp
      · split <;> simp [replaceLast]
      · split <;> simp [replaceLast]
  | line index line now => simp [step]
  | error text now stamp => simp [step, appendErrorLine]
  | digest tabId lineIndex now =>
    rw [step, toggleDigestExpansion]
    split
    · split_ifs <;> rfl
    · rfl
  | event tabId lineIndex =>
    rw [step, toggleEventExpansion]
    split <;> simp
  | roster index users => simp [step, applyRoster]
  | frame now =>
    rw [step, finishClosing]
    split
    · split_ifs <;> rfl
    · rfl

/-- The ids stay where they are. -/
theorem step_place (view : SuperiorityView) (input : Input) (tabId : Nat) :
    (view.step input).place tabId = view.place tabId := by
  have hids : (view.step input).tabs.map (·.id) = view.tabs.map (·.id) := by
    apply List.ext_getElem?
    intro i
    rw [List.getElem?_map, List.getElem?_map]
    cases h : view.tabs[i]? with
    | none =>
      have hlen := List.getElem?_eq_none_iff.1 h
      rw [List.getElem?_eq_none_iff.2 (by rw [step_length]; exact hlen)]
    | some tab =>
      obtain ⟨tab', htab', hmoves⟩ := view.step_tab input h
      have hid : tab'.id = tab.id := by
        unfold Moves at hmoves
        split at hmoves
        · exact hmoves.1
        · exact hmoves.id
      simp [htab', hid]
  have hfind : ∀ view : SuperiorityView,
      view.place tabId = (view.tabs.map (·.id)).findIdx? (· = tabId) := by
    intro view
    rw [List.findIdx?_map]
    rfl
  rw [hfind, hfind, hids]

end SuperiorityView

/-! ## The ledger of a run -/

/-- The view with what it forgets: for each tab the lines that were trimmed, the oldest first, and
the handles that were reported, and for the open digest the number of the line it was opened on. -/
structure Ledger where
  view : SuperiorityView
  archive : Nat → List ChatLine
  reported : Nat → MembershipKind → List UInt32
  opened : Option Nat

/-- The lines that are gone from a transcript that got shorter though a line was appended. -/
def trimmed (before after : List ChatLine) : List ChatLine :=
  if after.length < before.length then before.take (before.length + 1 - after.length) else []

namespace Ledger

/-- Nothing has happened yet. -/
def start (view : SuperiorityView) : Ledger :=
  { view := { view with expandedDigest := none }
    archive := fun _ => []
    reported := fun _ _ => []
    opened := none }

/-- The number of the line that a tab and a position denote, if there is one. -/
def number (ledger : Ledger) (tabId lineIndex : Nat) : Option Nat :=
  (ledger.view.place tabId).bind fun i =>
    if lineIndex < (ledger.view.transcript i).length then
      some ((ledger.archive i).length + lineIndex)
    else none

/-- The number of the line that the open digest denotes. -/
def denoted (ledger : Ledger) : Option Nat :=
  ledger.view.expandedDigest.bind fun expanded => ledger.number expanded.tabId expanded.lineIndex

/-- A toggle opens a digest unless it closes that very one. -/
def openedBy (ledger : Ledger) : Input → Option Nat
  | .digest tabId lineIndex _ =>
    match ledger.view.expandedDigest with
    | some expanded =>
      if expanded.tabId = tabId ∧ expanded.lineIndex = lineIndex then ledger.opened
      else ledger.number tabId lineIndex
    | none => ledger.number tabId lineIndex
  | _ => ledger.opened

def step (ledger : Ledger) (input : Input) : Ledger :=
  { view := ledger.view.step input
    archive := fun i => ledger.archive i ++
      trimmed (ledger.view.transcript i) ((ledger.view.step input).transcript i)
    reported := fun i kind => ledger.reported i kind ++ ledger.view.reports input i kind
    opened := ledger.openedBy input }

/-- All lines a tab ever held. -/
def history (ledger : Ledger) (i : Nat) : List ChatLine :=
  ledger.archive i ++ ledger.view.transcript i

/-! ## What is claimed of a run -/

/-- The lines tell of those who were there at first, and then of everyone reported, in order. -/
def Tells (first now : Ledger) : Prop :=
  ∀ i kind, told kind (now.history i) = told kind (first.history i) ++ now.reported i kind

/-- The open digest denotes the line it was opened on, and no line once that has been trimmed. -/
def Refers (ledger : Ledger) : Prop :=
  ∀ expanded number i, ledger.view.expandedDigest = some expanded →
    ledger.opened = some number → ledger.view.place expanded.tabId = some i →
    ledger.denoted = if (ledger.archive i).length ≤ number then some number else none

/-- Between two moments of a run the lines stay the same and in their order, and those that go are
the oldest. -/
def Settled (before after : Ledger) : Prop :=
  ∀ i, before.archive i <+: after.archive i ∧
    List.Forall₂ ChatLine.Grows (before.history i)
      ((after.history i).take (before.history i).length)

def FoldsAndRefers (first : Ledger) (inputs : List Input) : Prop :=
  StatesMeet step (fun now => Tells first now ∧ Refers now) first inputs ∧
    ∀ earlier middle later, inputs = earlier ++ middle ++ later →
      Settled (run step first earlier) (run step first (earlier ++ middle))

/-- The input makes the transcript trim in which a digest is open. -/
def Strands (ledger : Ledger) (input : Input) : Prop :=
  ∃ expanded i, ledger.view.expandedDigest = some expanded ∧ ledger.opened ≠ none ∧
    ledger.view.place expanded.tabId = some i ∧ ledger.view.appendsTo input = some i ∧
    2000 ≤ (ledger.view.transcript i).length

end Ledger

/-! ## What a step does to a history -/

theorem trimmed_of_le {before after : List ChatLine} (h : before.length ≤ after.length) :
    trimmed before after = [] :=
  if_neg (by omega)

/-- A line is appended. Only when 2000 are there already do the first 500 go. -/
theorem push_transcript (tab : ChannelState) (line : ChatLine) :
    trimmed tab.transcript (tab.push line).transcript ++ (tab.push line).transcript =
      tab.transcript ++ [line] ∧
    (tab.transcript.length < 2000 →
      trimmed tab.transcript (tab.push line).transcript = [] ∧
        (tab.push line).transcript.length = tab.transcript.length + 1) ∧
    (2000 ≤ tab.transcript.length →
      (trimmed tab.transcript (tab.push line).transcript).length = 500 ∧
        (tab.push line).transcript.length + 499 = tab.transcript.length) := by
  by_cases hlong : 2000 ≤ tab.transcript.length
  · have hpush : (tab.push line).transcript = tab.transcript.drop 500 ++ [line] := by
      have hsplit : (tab.transcript ++ [line]).drop 500 = tab.transcript.drop 500 ++ [line] :=
        List.drop_append_of_le_length (by omega)
      simp only [ChannelState.push, hsplit]
      rw [if_pos (by simp; omega)]
    have htrimmed : trimmed tab.transcript (tab.push line).transcript =
        tab.transcript.take 500 := by
      rw [trimmed, if_pos (by simp [hpush]; omega)]
      congr 1
      simp [hpush]
      omega
    refine ⟨?_, by omega, ?_⟩
    · rw [htrimmed, hpush, ← List.append_assoc, List.take_append_drop]
    · intro _
      rw [htrimmed, hpush]
      simp
      omega
  · have hpush : (tab.push line).transcript = tab.transcript ++ [line] := by
      simp only [ChannelState.push]
      rw [if_neg (by simp; omega)]
    have htrimmed : trimmed tab.transcript (tab.push line).transcript = [] :=
      trimmed_of_le (by simp [hpush])
    exact ⟨by rw [htrimmed, hpush, List.nil_append], fun _ => ⟨htrimmed, by simp [hpush]⟩,
      fun h => absurd h hlong⟩

namespace SuperiorityView

theorem transcript_of_tab {view : SuperiorityView} {i : Nat} {tab : ChannelState}
    (h : view.tabs[i]? = some tab) : view.transcript i = tab.transcript := by
  simp [transcript, h]

theorem transcript_of_none {view : SuperiorityView} {i : Nat} (h : view.tabs[i]? = none) :
    view.transcript i = [] := by
  simp [transcript, h]

theorem step_none {view : SuperiorityView} {i : Nat} (h : view.tabs[i]? = none)
    (input : Input) : (view.step input).tabs[i]? = none := by
  rw [List.getElem?_eq_none_iff, step_length]
  exact List.getElem?_eq_none_iff.1 h

theorem appendsTo_lt {view : SuperiorityView} {input : Input} {i : Nat}
    (h : view.appendsTo input = some i) : i < view.tabs.length := by
  cases input with
  | membership index kind member now stamp =>
    simp only [appendsTo] at h
    cases hindex : view.tabs[index]? with
    | none => simp [hindex] at h
    | some tab =>
      simp only [hindex, Option.ite_none_left_eq_some, Option.some.injEq] at h
      exact h.2 ▸ (List.getElem?_eq_some_iff.1 hindex).1
  | line index line now =>
    simp only [appendsTo, Option.ite_none_right_eq_some, Option.some.injEq] at h
    exact h.2 ▸ h.1
  | error text now stamp =>
    simp only [appendsTo, Option.ite_none_right_eq_some, Option.some.injEq] at h
    exact h.2 ▸ h.1
  | _ => simp [appendsTo] at h

/-- With the lines it trims put back, a transcript has grown in place and perhaps at its end. -/
theorem step_history (view : SuperiorityView) (input : Input) (i : Nat) :
    ∃ grown more, trimmed (view.transcript i) ((view.step input).transcript i) ++
        (view.step input).transcript i = grown ++ more ∧
      List.Forall₂ ChatLine.Grows (view.transcript i) grown ∧
      ∀ kind, told kind (grown ++ more) =
        told kind (view.transcript i) ++ view.reports input i kind := by
  cases h : view.tabs[i]? with
  | none =>
    have hlen : ¬ i < view.tabs.length :=
      Nat.not_lt.2 (List.getElem?_eq_none_iff.1 h)
    rw [transcript_of_none h, transcript_of_none (step_none h input)]
    exact ⟨[], [], rfl, .nil, by simp [reports, hlen]⟩
  | some tab =>
    obtain ⟨tab', htab', hmoves⟩ := view.step_tab input h
    rw [transcript_of_tab h, transcript_of_tab htab']
    unfold Moves at hmoves
    split at hmoves
    · obtain ⟨-, line, hline, hreports⟩ := hmoves
      refine ⟨tab.transcript, [line], ?_, grows_refl _, by simp [hreports]⟩
      rw [hline]
      exact (push_transcript tab line).1
    · refine ⟨tab'.transcript, [], ?_, hmoves.grows, by simpa using hmoves.told⟩
      rw [trimmed_of_le (Nat.le_of_eq (List.Forall₂.length_eq hmoves.grows))]
      simp

/-- Nothing is trimmed unless a line is appended to a transcript that has 2000 already. -/
theorem step_untrimmed {view : SuperiorityView} {input : Input} {i : Nat}
    (h : view.appendsTo input = some i → (view.transcript i).length < 2000) :
    trimmed (view.transcript i) ((view.step input).transcript i) = [] ∧
      (view.transcript i).length ≤ ((view.step input).transcript i).length := by
  cases htab : view.tabs[i]? with
  | none =>
    rw [transcript_of_none htab, transcript_of_none (step_none htab input)]
    exact ⟨rfl, Nat.le_refl _⟩
  | some tab =>
    obtain ⟨tab', htab', hmoves⟩ := view.step_tab input htab
    rw [transcript_of_tab htab] at h ⊢
    rw [transcript_of_tab htab']
    unfold Moves at hmoves
    split at hmoves
    · obtain ⟨-, line, hline, -⟩ := hmoves
      obtain ⟨htrimmed, hlen⟩ := (push_transcript tab line).2.1 (h ‹_›)
      rw [hline]
      exact ⟨htrimmed, by omega⟩
    · have hlen := Nat.le_of_eq (List.Forall₂.length_eq hmoves.grows)
      exact ⟨trimmed_of_le hlen, hlen⟩

theorem step_trimmed {view : SuperiorityView} {input : Input} {i : Nat}
    (h : view.appendsTo input = some i) (hlong : 2000 ≤ (view.transcript i).length) :
    (trimmed (view.transcript i) ((view.step input).transcript i)).length = 500 ∧
      ((view.step input).transcript i).length + 499 = (view.transcript i).length := by
  obtain ⟨tab, htab⟩ : ∃ tab, view.tabs[i]? = some tab :=
    ⟨_, List.getElem?_eq_getElem (appendsTo_lt h)⟩
  obtain ⟨tab', htab', hmoves⟩ := view.step_tab input htab
  rw [Moves, if_pos h] at hmoves
  obtain ⟨-, line, hline, -⟩ := hmoves
  rw [transcript_of_tab htab] at hlong ⊢
  rw [transcript_of_tab htab', hline]
  exact (push_transcript tab line).2.2 hlong

/-! ## What a step does to the open digest -/

@[simp] theorem modifyTab_expandedDigest (view : SuperiorityView) (index : Nat)
    (edit : ChannelState → ChannelState) :
    (view.modifyTab index edit).expandedDigest = view.expandedDigest := rfl

@[simp] theorem appendChatLine_expandedDigest (view : SuperiorityView) (index : Nat)
    (line : ChatLine) (now : Instant) :
    (view.appendChatLine index line now).expandedDigest = view.expandedDigest := by
  unfold appendChatLine
  cases view.tabs[index]? with
  | none => rfl
  | some tab =>
    dsimp only
    split <;> rfl

@[simp] theorem appendDigest_expandedDigest (view : SuperiorityView) (index : Nat)
    (kind : MembershipKind) (member : UiUser) (now : Instant) (stamp : String) :
    (view.appendDigest index kind member now stamp).expandedDigest = view.expandedDigest := by
  unfold appendDigest
  cases view.tabs[index]? with
  | none => rfl
  | some tab =>
    dsimp only
    split <;> simp [replaceLast]

/-- Only a toggle and a frame have to do with the open digest. -/
theorem step_expandedDigest {view : SuperiorityView} {input : Input}
    (hdigest : ∀ tabId lineIndex now, input ≠ .digest tabId lineIndex now)
    (hframe : ∀ now, input ≠ .frame now) :
    (view.step input).expandedDigest = view.expandedDigest := by
  cases input with
  | membership index kind member now stamp =>
    rw [step, appendMembership]
    cases view.tabs[index]? with
    | none => rfl
    | some tab =>
      dsimp only
      split_ifs
      · simp
      · simp
      · split <;> simp [replaceLast]
      · split <;> simp [replaceLast]
  | line index line now => simp [step]
  | error text now stamp => simp [step, appendErrorLine]
  | digest tabId lineIndex now => exact absurd rfl (hdigest tabId lineIndex now)
  | event tabId lineIndex =>
    rw [step, toggleEventExpansion]
    split <;> rfl
  | roster index users => rfl
  | frame now => exact absurd rfl (hframe now)

end SuperiorityView

namespace Ledger

/-! ## The lines -/

theorem history_step (ledger : Ledger) (input : Input) (i : Nat) :
    (ledger.step input).history i = ledger.archive i ++
      (trimmed (ledger.view.transcript i) ((ledger.view.step input).transcript i) ++
        (ledger.view.step input).transcript i) := by
  simp [history, step]

theorem tells_step {first ledger : Ledger} (h : first.Tells ledger) (input : Input) :
    first.Tells (ledger.step input) := by
  intro i kind
  obtain ⟨grown, more, hsplit, -, htold⟩ := ledger.view.step_history input i
  have hbefore := h i kind
  rw [history, told_append] at hbefore
  rw [history_step, hsplit, told_append, htold kind, ← List.append_assoc, hbefore]
  simp [step]

theorem settled_refl (ledger : Ledger) : ledger.Settled ledger := by
  intro i
  exact ⟨List.prefix_refl _, by rw [List.take_length]; exact grows_refl _⟩

theorem settled_step (ledger : Ledger) (input : Input) : ledger.Settled (ledger.step input) := by
  intro i
  obtain ⟨grown, more, hsplit, hgrows, -⟩ := ledger.view.step_history input i
  refine ⟨List.prefix_append _ _, ?_⟩
  have hlen : (ledger.history i).length = (ledger.archive i ++ grown).length := by
    simp [history, List.Forall₂.length_eq hgrows]
  rw [history_step, hsplit, ← List.append_assoc, hlen, List.take_left]
  exact List.rel_append (grows_refl _) hgrows

theorem Settled.trans {first second third : Ledger} (h : first.Settled second)
    (h' : second.Settled third) : first.Settled third := by
  intro i
  obtain ⟨harchive, hgrows⟩ := h i
  obtain ⟨harchive', hgrows'⟩ := h' i
  refine ⟨harchive.trans harchive', ?_⟩
  have hlen : (first.history i).length ≤ (second.history i).length := by
    have := List.Forall₂.length_eq hgrows
    rw [List.length_take] at this
    omega
  have htaken := List.forall₂_take (first.history i).length hgrows'
  rw [List.take_take, Nat.min_eq_left hlen] at htaken
  exact grows_trans hgrows htaken

theorem settled_run (ledger : Ledger) (inputs : List Input) :
    ledger.Settled (run step ledger inputs) := by
  induction inputs generalizing ledger with
  | nil => exact ledger.settled_refl
  | cons input inputs ih => exact (ledger.settled_step input).trans (ih _)

/-! ## The reference -/

/-- The open digest denotes the line that it was opened on. -/
def Points (ledger : Ledger) : Prop :=
  ∀ expanded number i, ledger.view.expandedDigest = some expanded →
    ledger.opened = some number → ledger.view.place expanded.tabId = some i →
    number = (ledger.archive i).length + expanded.lineIndex ∧
      expanded.lineIndex < (ledger.view.transcript i).length

theorem Points.refers {ledger : Ledger} (h : ledger.Points) : ledger.Refers := by
  intro expanded number i hexpanded hopened hplace
  obtain ⟨rfl, hlt⟩ := h expanded number i hexpanded hopened hplace
  simp [denoted, Ledger.number, hexpanded, hplace, hlt]

theorem points_start (view : SuperiorityView) : (start view).Points := by
  intro expanded number i hexpanded
  simp [start] at hexpanded

/-- A step that trims no line of the transcript with the open digest, if it leaves that open. -/
theorem points_of_untrimmed {ledger : Ledger} {input : Input} (h : ledger.Points)
    (hsame : ∀ expanded, (ledger.view.step input).expandedDigest = some expanded →
      ∃ before, ledger.view.expandedDigest = some before ∧ before.tabId = expanded.tabId ∧
        before.lineIndex = expanded.lineIndex)
    (hopened : ledger.openedBy input = ledger.opened)
    (hstrands : ¬ ledger.Strands input) : (ledger.step input).Points := by
  intro expanded number i hexpanded hnumber hplace
  obtain ⟨before, hbefore, htab, hline⟩ := hsame expanded hexpanded
  change ledger.openedBy input = some number at hnumber
  rw [hopened] at hnumber
  change (ledger.view.step input).place expanded.tabId = some i at hplace
  rw [SuperiorityView.step_place, ← htab] at hplace
  obtain ⟨rfl, hlt⟩ := h before number i hbefore hnumber hplace
  have huntrimmed : ledger.view.appendsTo input = some i →
      (ledger.view.transcript i).length < 2000 := by
    intro happends
    by_contra hlong
    exact hstrands ⟨before, i, hbefore, by simp [hnumber], hplace, happends, Nat.not_lt.1 hlong⟩
  obtain ⟨htrimmed, hlen⟩ := SuperiorityView.step_untrimmed huntrimmed
  refine ⟨?_, ?_⟩
  · simp only [step, htrimmed, List.append_nil, hline]
  · exact Nat.lt_of_lt_of_le (hline ▸ hlt) hlen

/-- A toggle that opens another digest. -/
theorem points_of_opening {ledger : Ledger} {tabId lineIndex : Nat} {now : Instant}
    (hview : ledger.view.step (.digest tabId lineIndex now) =
      { ledger.view with
        expandedDigest := some { tabId, lineIndex, started := now, closing := false } })
    (hopened : ledger.openedBy (.digest tabId lineIndex now) = ledger.number tabId lineIndex) :
    (ledger.step (.digest tabId lineIndex now)).Points := by
  intro expanded number i hexpanded hnumber hplace
  change ledger.openedBy (.digest tabId lineIndex now) = some number at hnumber
  simp only [step, hview, Option.some.injEq] at hexpanded hplace ⊢
  subst hexpanded
  change ledger.view.place tabId = some i at hplace
  rw [hopened, Ledger.number, hplace, Option.bind_some] at hnumber
  change _ = _ ∧ lineIndex < (ledger.view.transcript i).length
  simp only [Option.ite_none_right_eq_some, Option.some.injEq] at hnumber
  have hsame : trimmed (ledger.view.transcript i) (ledger.view.transcript i) = [] :=
    trimmed_of_le (Nat.le_refl _)
  refine ⟨?_, hnumber.1⟩
  change _ = (ledger.archive i ++ trimmed (ledger.view.transcript i)
    (ledger.view.transcript i)).length + lineIndex
  rw [hsame, List.append_nil, hnumber.2]

theorem points_step {ledger : Ledger} {input : Input} (h : ledger.Points)
    (hstrands : ¬ ledger.Strands input) : (ledger.step input).Points := by
  cases input with
  | digest tabId lineIndex now =>
    cases hbefore : ledger.view.expandedDigest with
    | none =>
      exact points_of_opening
        (by simp [SuperiorityView.step, SuperiorityView.toggleDigestExpansion, hbefore])
        (by simp [openedBy, hbefore])
    | some before =>
      by_cases hcovers : before.tabId = tabId ∧ before.lineIndex = lineIndex
      · refine points_of_untrimmed h ?_ (by simp [openedBy, hbefore, hcovers]) hstrands
        intro expanded hexpanded
        refine ⟨before, hbefore, ?_⟩
        simp only [SuperiorityView.step, SuperiorityView.toggleDigestExpansion, hbefore, hcovers,
          and_self, if_true] at hexpanded
        split_ifs at hexpanded
        · rw [hbefore, Option.some.injEq] at hexpanded
          simp [hexpanded]
        · simp only [Option.some.injEq] at hexpanded
          simpa [← hexpanded] using hcovers
      · exact points_of_opening
          (by simp [SuperiorityView.step, SuperiorityView.toggleDigestExpansion, hbefore, hcovers])
          (by simp [openedBy, hbefore, hcovers])
  | frame now =>
    refine points_of_untrimmed h ?_ rfl hstrands
    intro expanded hexpanded
    refine ⟨expanded, ?_, rfl, rfl⟩
    rw [SuperiorityView.step, SuperiorityView.finishClosing] at hexpanded
    split at hexpanded
    · split_ifs at hexpanded
      exact hexpanded
    · exact hexpanded
  | _ =>
    refine points_of_untrimmed h ?_ rfl hstrands
    intro expanded hexpanded
    rw [SuperiorityView.step_expandedDigest (by simp) (by simp)] at hexpanded
    exact ⟨expanded, hexpanded, rfl, rfl⟩

/-- The trimmed transcript has another line, or none, where the digest was. -/
theorem not_refers_of_strands {ledger : Ledger} {input : Input} (h : ledger.Points)
    (hstrands : ledger.Strands input) : ¬ (ledger.step input).Refers := by
  obtain ⟨expanded, i, hexpanded, hopened, hplace, happends, hlong⟩ := hstrands
  obtain ⟨number, hnumber⟩ := Option.ne_none_iff_exists'.1 hopened
  obtain ⟨rfl, hlt⟩ := h expanded number i hexpanded hnumber hplace
  obtain ⟨htrimmed, hlen⟩ := SuperiorityView.step_trimmed happends hlong
  have hdigest : ∀ tabId lineIndex now, input ≠ .digest tabId lineIndex now := by
    rintro tabId lineIndex now rfl
    simp [SuperiorityView.appendsTo] at happends
  have hframe : ∀ now, input ≠ .frame now := by
    rintro now rfl
    simp [SuperiorityView.appendsTo] at happends
  have hexpanded' : (ledger.view.step input).expandedDigest = some expanded := by
    rw [SuperiorityView.step_expandedDigest hdigest hframe, hexpanded]
  have hopened' : (ledger.step input).opened = ledger.opened := by
    cases input with
    | digest tabId lineIndex now => exact absurd rfl (hdigest tabId lineIndex now)
    | _ => rfl
  have hplace' : (ledger.view.step input).place expanded.tabId = some i := by
    rw [SuperiorityView.step_place, hplace]
  intro hrefers
  have := hrefers expanded _ i hexpanded' (hopened'.trans hnumber) hplace'
  simp only [denoted, Ledger.number, step, hexpanded', hplace', Option.bind_some,
    List.length_append, htrimmed] at this
  split_ifs at this with hshown hkept hkept
  · simp only [Option.some.injEq] at this
    omega
  · omega

theorem tells_start (view : SuperiorityView) : (start view).Tells (start view) := by
  intro i kind
  simp [start]

/-- Throughout a run everyone is told of, and the open digest is the right one exactly if no step
trims the transcript it is in. -/
theorem statesMeet_iff (view : SuperiorityView) (inputs : List Input) :
    StatesMeet step (fun now => (start view).Tells now ∧ now.Refers) (start view) inputs ↔
      StepsMeet step (fun now input => ¬ now.Strands input) (start view) inputs := by
  have hkeeps : ∀ now input, (start view).Tells now ∧ now.Points → ¬ now.Strands input →
      (start view).Tells (now.step input) ∧ (now.step input).Points := by
    intro now input h hstrands
    exact ⟨tells_step h.1 input, points_step h.2 hstrands⟩
  refine statesMeet_iff_stepsMeet (I := fun now => (start view).Tells now ∧ now.Points)
    ?_ hkeeps ?_ ⟨tells_start view, points_start view⟩
  · intro now h
    exact ⟨h.1, h.2.refers⟩
  · intro now input h hstrands hboth
    exact not_refers_of_strands h.2 (not_not.1 hstrands) hboth.2

/-- **Transcripts.** Every arrival and departure that was reported is in one line of its tab, in
order, the lines stay as they are but for what they take in, and only the oldest are trimmed. The
open digest denotes the line it was opened on, and none once that is gone, in exactly the runs in
which nothing is appended to 2000 lines or more while a digest among them is open. -/
theorem foldsAndRefers_iff (view : SuperiorityView) (inputs : List Input) :
    (start view).FoldsAndRefers inputs ↔
      StepsMeet step (fun now input => ¬ now.Strands input) (start view) inputs := by
  constructor
  · intro h
    exact (statesMeet_iff view inputs).1 h.1
  · intro h
    refine ⟨(statesMeet_iff view inputs).2 h, ?_⟩
    intro earlier middle later _
    rw [run_append]
    exact settled_run _ middle

/-! ## A digest that another line takes the place of -/

/-- A busy room in which one line has been said some number of times. -/
def busyTab (count : Nat) : ChannelState :=
  { id := 0
    transcript := List.replicate count (.error "" "")
    users := List.replicate 26 { handle := 7, name := "", clanTag := none, portrait := none }
    identitiesPending := false }

theorem busyTab_id (count : Nat) : (busyTab count).id = 0 := rfl

theorem busyTab_users (count : Nat) : highTrafficOnline < (busyTab count).users.length := by
  simp [busyTab, highTrafficOnline]

theorem busyTab_length (count : Nat) : (busyTab count).transcript.length = count :=
  List.length_replicate ..

theorem busyTab_last (count : Nat) :
    (busyTab (count + 1)).transcript.getLast? = some (.error "" "") := by
  simp [busyTab, List.getLast?_replicate]

def busyView : SuperiorityView :=
  { tabs := [busyTab 0], activeTab := 0, chatEntryReveal := none, expandedDigest := none }

def newcomer : UiUser := { handle := 8, name := "", clanTag := none, portrait := none }

/-- Somebody comes after 1999 lines, their digest is opened, and one more line is appended. -/
def stranding : List Input :=
  List.replicate 1999 (.error "" 0 "") ++
    [.membership 0 .joined newcomer 0 "", .digest 0 1999 0, .line 0 (.notice "" "") 0]

theorem run_errors {count : Nat} (h : count ≤ 2000) :
    ∃ reveal, (run step (start busyView) (List.replicate count (.error "" 0 ""))).view =
      { tabs := [busyTab count], activeTab := 0, chatEntryReveal := reveal
        expandedDigest := none } := by
  induction count with
  | zero => exact ⟨none, rfl⟩
  | succ count ih =>
    obtain ⟨reveal, hview⟩ := ih (by omega)
    have hpush : (busyTab count).push (.error "" "") = busyTab (count + 1) := by
      have hshort : ¬ 2000 < (List.replicate count (ChatLine.error "" "") ++
          [ChatLine.error "" ""]).length := by
        simp
        omega
      simp only [ChannelState.push, busyTab, hshort, if_false, List.replicate_succ']
    rw [List.replicate_succ', run_append]
    refine ⟨some {
      tabId := 0, lineIndex := (busyTab (count + 1)).transcript.length - 1, started := 0 }, ?_⟩
    simp only [run_cons, run_nil, step, hview, SuperiorityView.step,
      SuperiorityView.appendErrorLine, SuperiorityView.appendChatLine, List.getElem?_cons_zero,
      SuperiorityView.modifyTab, List.modify_zero_cons, hpush, if_true, busyTab_id]

/-- The digest is line 2000 of the only tab. -/
theorem strands_busy {ledger : Ledger} {tab : ChannelState} {reveal : Option ChatEntryReveal}
    (hview : ledger.view =
      { tabs := [tab], activeTab := 0, chatEntryReveal := reveal, expandedDigest := none })
    (hid : tab.id = 0) (hbusy : highTrafficOnline < tab.users.length)
    (hlen : tab.transcript.length = 1999)
    (hlast : tab.transcript.getLast? = some (.error "" "")) :
    ((ledger.step (.membership 0 .joined newcomer 0 "")).step (.digest 0 1999 0)).Strands
      (.line 0 (.notice "" "") 0) := by
  set joined := ledger.step (.membership 0 .joined newcomer 0 "") with hjoined
  have htabs : joined.view.tabs =
      [({ tab with identitiesPending := true } : ChannelState).push
        (.digest "" 0 0 [newcomer] [])] := by
    simp [hjoined, step, hview, SuperiorityView.step, SuperiorityView.appendMembership,
      SuperiorityView.appendDigest, SuperiorityView.appendChatLine, SuperiorityView.modifyTab,
      newcomer, hbusy, hlast, ChatLine.gather]
  have hclosed : joined.view.expandedDigest = none := by
    change (ledger.view.step _).expandedDigest = none
    rw [SuperiorityView.step_expandedDigest (by simp) (by simp), hview]
  have hlong : (joined.view.transcript 0).length = 2000 := by
    simp [SuperiorityView.transcript, htabs, ChannelState.push, hlen]
  have hplace : joined.view.place 0 = some 0 := by
    simp [SuperiorityView.place, htabs, ChannelState.push, hid, List.findIdx?_cons]
  have hopen : (joined.step (.digest 0 1999 0)).view =
      { joined.view with
        expandedDigest :=
          some { tabId := 0, lineIndex := 1999, started := 0, closing := false } } := by
    simp [step, SuperiorityView.step, SuperiorityView.toggleDigestExpansion, hclosed]
  have hopened : (joined.step (.digest 0 1999 0)).opened ≠ none := by
    simp [step, openedBy, hclosed, Ledger.number, hplace, hlong]
  refine ⟨{ tabId := 0, lineIndex := 1999, started := 0, closing := false }, 0, ?_⟩
  rw [hopen]
  exact ⟨rfl, hopened, hplace, by simp [SuperiorityView.appendsTo, htabs], Nat.le_of_eq hlong.symm⟩

theorem not_foldsAndRefers : ¬ (start busyView).FoldsAndRefers stranding := by
  intro h
  have hsteps := (statesMeet_iff busyView stranding).1 h.1
  rw [stranding, stepsMeet_append] at hsteps
  obtain ⟨-, -, -, hlast, -⟩ := hsteps
  obtain ⟨reveal, hview⟩ := run_errors (show 1999 ≤ 2000 by omega)
  exact hlast (strands_busy hview (busyTab_id _) (busyTab_users _) (busyTab_length _)
    (busyTab_last 1998))

end Ledger

end Superiority.Desktop
