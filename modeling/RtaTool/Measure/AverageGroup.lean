import RtaTool.Measure.RoutingPlan

/-!
# The average group

One live group of measurement positions, all against one reference. Before each publish
`syncAverageGroupMembership` compares the members it predicts with those it last synced, and
rebuilds the group only when they differ. What it returns are positions in the plan, which are the
slots the publish then reads; none of them is past the analysers there are.

## Main definitions

* `AverageGroup`, `AverageGroup.addMember`
* `syncAverageGroupMembership`

## Main results

* `syncAverageGroupMembership_lt` -- only slots that have a route and an analyser
-/

namespace RtaTool

/-- `MemberRefusal`. -/
inductive MemberRefusal
  | none
  | differentReference
  deriving DecidableEq, Repr

/-- `AverageGroupMember`. -/
structure AverageGroupMember where
  tfIndex : ℕ
  referenceChannel : ℕ
  name : String
  trim : ℚ := 1
  deriving DecidableEq, Repr

/-- `AverageGroup`, without the mode its `publish` averages in. -/
structure AverageGroup where
  members : List AverageGroupMember := []
  solo : ℤ := -1
  deriving DecidableEq, Repr

namespace AverageGroup

/-- `addMember`: the first member settles the reference. -/
def addMember (g : AverageGroup) (member : AverageGroupMember) : MemberRefusal × AverageGroup :=
  if g.members.head?.all (·.referenceChannel = member.referenceChannel) then
    (.none, { g with members := g.members ++ [member] })
  else (.differentReference, g)

/-- `setSolo`. -/
def setSolo (g : AverageGroup) (tfIndex : ℤ) : AverageGroup := { g with solo := tfIndex }

end AverageGroup

/-- The group, the memory of what was last synced, and the slots of the members. -/
structure GroupSync where
  group : AverageGroup
  lastTfIndices : List ℕ
  memberAnalyserIndices : List ℕ
  deriving DecidableEq, Repr

/-- The routes below the cap, with their positions. -/
def RoutingPlan.capped (plan : RoutingPlan) : List (TransferRoute × ℕ) :=
  (plan.routes.take kMaxTransferFunctions).zipIdx

/-- The reference the members are predicted to share: the group's, or that of the first route. -/
def AverageGroup.predictedReference (g : AverageGroup) (first : TransferRoute) : ℕ :=
  (g.members.head?.map (·.referenceChannel)).getD first.referenceChannel

/-- The trim a surviving member keeps. -/
def AverageGroup.trimOf (g : AverageGroup) (tfIndex : ℕ) : ℚ :=
  ((g.members.find? (·.tfIndex = tfIndex)).map (·.trim)).getD 1

/-- One turn of the rebuild: a route is offered to the group. -/
def GroupSync.offer (old : AverageGroup) (sync : GroupSync) (route : TransferRoute × ℕ) :
    GroupSync :=
  let member : AverageGroupMember :=
    { tfIndex := route.1.tfIndex
      referenceChannel := route.1.referenceChannel
      name := "TF " ++ toString route.1.tfIndex
      trim := old.trimOf route.1.tfIndex }
  match sync.group.addMember member with
  | (.none, group) =>
    { group := group
      lastTfIndices := sync.lastTfIndices ++ [route.1.tfIndex]
      memberAnalyserIndices := sync.memberAnalyserIndices ++ [route.2] }
  | (.differentReference, group) => { sync with group := group }

/-- The group built anew from the routes of the plan. -/
def rebuildMembership (old : AverageGroup) (plan : RoutingPlan) : GroupSync :=
  let sync := plan.capped.foldl (GroupSync.offer old) ⟨{}, [], []⟩
  if 0 ≤ old.solo then { sync with group := sync.group.setSolo old.solo } else sync

/-- `syncAverageGroupMembership(group, lastTfIndices, plan)`. -/
def syncAverageGroupMembership (group : AverageGroup) (lastTfIndices : List ℕ)
    (plan : RoutingPlan) : GroupSync :=
  match plan.routes with
  | [] => if lastTfIndices = [] then ⟨group, lastTfIndices, []⟩ else ⟨{}, [], []⟩
  | first :: _ =>
    let predicted := plan.capped.filter
      (·.1.referenceChannel = group.predictedReference first)
    if predicted.map (·.1.tfIndex) = lastTfIndices then
      ⟨group, lastTfIndices, predicted.map (·.2)⟩
    else rebuildMembership group plan

/-! ### Which slots are read -/

/-- `readSlots`: a snapshot reads slot 0 and one slot per route that has an analyser. -/
def RoutingPlan.readSlots (plan : RoutingPlan) : ℕ :=
  max 1 (min plan.routes.length kMaxTransferFunctions)

variable {plan : RoutingPlan} {old : AverageGroup} {slot : ℕ} {route : TransferRoute × ℕ}

theorem RoutingPlan.snd_lt_of_mem_capped (h : route ∈ plan.capped) : route.2 < plan.readSlots := by
  have hlt := (List.mem_zipIdx h).2.1
  rw [List.length_take] at hlt
  simp only [RoutingPlan.readSlots]
  omega

theorem GroupSync.mem_offer {sync : GroupSync}
    (h : slot ∈ (sync.offer old route).memberAnalyserIndices) :
    slot ∈ sync.memberAnalyserIndices ∨ slot = route.2 := by
  simp only [GroupSync.offer] at h
  split at h
  · rcases List.mem_append.mp h with h | h
    · exact .inl h
    · exact .inr (List.mem_singleton.mp h)
  · exact .inl h

theorem mem_foldl_offer {routes : List (TransferRoute × ℕ)} :
    ∀ {sync : GroupSync}, slot ∈ (routes.foldl (GroupSync.offer old) sync).memberAnalyserIndices →
      slot ∈ sync.memberAnalyserIndices ∨ ∃ route ∈ routes, slot = route.2 := by
  induction routes with
  | nil => exact fun h => .inl h
  | cons route routes ih =>
    intro sync h
    rcases ih h with h | ⟨later, hlater, rfl⟩
    · rcases GroupSync.mem_offer h with h | rfl
      · exact .inl h
      · exact .inr ⟨route, List.mem_cons_self, rfl⟩
    · exact .inr ⟨later, List.mem_cons_of_mem _ hlater, rfl⟩

theorem mem_rebuildMembership (h : slot ∈ (rebuildMembership old plan).memberAnalyserIndices) :
    ∃ route ∈ plan.capped, slot = route.2 := by
  have hfold : slot ∈
      (plan.capped.foldl (GroupSync.offer old) ⟨{}, [], []⟩).memberAnalyserIndices := by
    simp only [rebuildMembership] at h
    split at h <;> exact h
  rcases mem_foldl_offer hfold with h | h
  · exact absurd h List.not_mem_nil
  · exact h

/-- The members of a group are read from slots that the publish gate asked about. -/
theorem syncAverageGroupMembership_lt {group : AverageGroup} {last : List ℕ}
    (h : slot ∈ (syncAverageGroupMembership group last plan).memberAnalyserIndices) :
    slot < plan.readSlots := by
  simp only [syncAverageGroupMembership] at h
  split at h
  · split at h <;> exact absurd h List.not_mem_nil
  · split at h
    · obtain ⟨route, hroute, rfl⟩ := List.mem_map.mp h
      exact RoutingPlan.snd_lt_of_mem_capped (List.mem_of_mem_filter hroute)
    · obtain ⟨route, hroute, rfl⟩ := mem_rebuildMembership h
      exact RoutingPlan.snd_lt_of_mem_capped hroute

end RtaTool
