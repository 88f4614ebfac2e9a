import RtaTool.Lib.Machine
import RtaTool.Measure.AverageGroup

/-!
# The average group under a sequence of plans

Who is in the group is decided twice. A prediction filters the plan by the reference the group has
already; if it names the members of the last sync, nothing is done. Otherwise the group is emptied
and every route is offered to it, and then the *first route of the plan* settles the reference.

The two decisions agree as long as the first route is on the group's reference. They part when a
route on another reference stands first (a lower measurement channel) and, by the same plan or
before it, the routes on the group's own reference have changed: the rebuild then moves the group
over to the other system.

`KeepsReference` is exactly the plans for which that does not happen, and a run of plans syncs the
membership as documented throughout if and only if all its plans are of that kind.

## Main definitions

* `expectedRoutes` -- the routes that are to be members
* `SyncsMembership` -- what a call owes its caller
* `KeepsReference` -- the plans under which it does

## Main results

* `rebuildMembership_eq` -- the loop, in closed form
* `syncsMembership_iff` -- one call
* `groupRuns_syncs_iff` -- every run of calls
-/

namespace RtaTool

/-- `group.members().front().referenceChannel`: the reference the group is on, if it has members. -/
def AverageGroup.reference (g : AverageGroup) : Option ℕ :=
  g.members.head?.map (·.referenceChannel)

/-- The routes below the cap that are on a reference, with their positions. -/
def RoutingPlan.cappedOn (plan : RoutingPlan) (r : ℕ) : List (TransferRoute × ℕ) :=
  plan.capped.filter (·.1.referenceChannel = r)

/-- The reference the members are to share after a call: the group's own as long as some route
below the cap is on it, that of the first route otherwise. -/
def governingReference (g : AverageGroup) (plan : RoutingPlan) : Option ℕ :=
  match g.reference with
  | some r => if plan.cappedOn r ≠ [] then some r else plan.routes.head?.map (·.referenceChannel)
  | none => plan.routes.head?.map (·.referenceChannel)

/-- The routes that are to be members after a call, in route order. -/
def expectedRoutes (g : AverageGroup) (plan : RoutingPlan) : List (TransferRoute × ℕ) :=
  match governingReference g plan with
  | some r => plan.cappedOn r
  | none => []

namespace GroupSync

/-- The memory names the members, and the members share one reference. -/
structure Consistent (s : GroupSync) : Prop where
  tags : s.lastTfIndices = s.group.members.map (·.tfIndex)
  shared : ∀ r, s.group.reference = some r → ∀ m ∈ s.group.members, m.referenceChannel = r

end GroupSync

/-- The call that took the group and its memory from `s` to `t` made the expected routes members,
returned their positions, would change nothing if it were made again, and kept the trim of every
tag that stood for one member before and stands for one member after. -/
structure SyncsMembership (s : GroupSync) (plan : RoutingPlan) (t : GroupSync) : Prop where
  members : t.group.members.map (fun m => (m.tfIndex, m.referenceChannel)) =
    (expectedRoutes s.group plan).map fun route => (route.1.tfIndex, route.1.referenceChannel)
  indices : t.memberAnalyserIndices = (expectedRoutes s.group plan).map (·.2)
  again : syncAverageGroupMembership t.group t.lastTfIndices plan = t
  trims : ∀ tf old new, s.group.members.filter (·.tfIndex = tf) = [old] →
    t.group.members.filter (·.tfIndex = tf) = [new] → new.trim = old.trim

/-- If the plan has routes on the group's reference, then one of them comes first or they are the
members the group has already. -/
def KeepsReference (s : GroupSync) (plan : RoutingPlan) : Prop :=
  ∀ r, s.group.reference = some r → plan.cappedOn r ≠ [] →
    plan.routes.head?.map (·.referenceChannel) = some r ∨
      (plan.cappedOn r).map (·.1.tfIndex) = s.lastTfIndices

/-! ### The rebuild -/

/-- The member a route becomes. -/
def memberOf (old : AverageGroup) (route : TransferRoute × ℕ) : AverageGroupMember where
  tfIndex := route.1.tfIndex
  referenceChannel := route.1.referenceChannel
  name := "TF " ++ toString route.1.tfIndex
  trim := old.trimOf route.1.tfIndex

/-- A route that is offered joins, or nothing happens. -/
theorem GroupSync.offer_eq (old : AverageGroup) (sync : GroupSync) (route : TransferRoute × ℕ) :
    sync.offer old route =
      if sync.group.reference.all (· = route.1.referenceChannel) then
        { group := { sync.group with members := sync.group.members ++ [memberOf old route] }
          lastTfIndices := sync.lastTfIndices ++ [route.1.tfIndex]
          memberAnalyserIndices := sync.memberAnalyserIndices ++ [route.2] }
      else sync := by
  have hall : sync.group.reference.all (· = route.1.referenceChannel) =
      sync.group.members.head?.all (·.referenceChannel = route.1.referenceChannel) := by
    rw [AverageGroup.reference]
    cases sync.group.members.head? <;> rfl
  rw [hall]
  simp only [GroupSync.offer, AverageGroup.addMember]
  by_cases h : sync.group.members.head?.all (·.referenceChannel = route.1.referenceChannel) = true
  · simp only [h, if_true, memberOf]
  · simp only [h, Bool.false_eq_true, if_false]

theorem foldl_offer_eq (old : AverageGroup) {r : ℕ} (routes : List (TransferRoute × ℕ)) :
    ∀ {sync : GroupSync}, sync.group.reference = some r →
      routes.foldl (GroupSync.offer old) sync =
        { group := { sync.group with
            members := sync.group.members ++
              (routes.filter (·.1.referenceChannel = r)).map (memberOf old) }
          lastTfIndices := sync.lastTfIndices ++
            (routes.filter (·.1.referenceChannel = r)).map (·.1.tfIndex)
          memberAnalyserIndices := sync.memberAnalyserIndices ++
            (routes.filter (·.1.referenceChannel = r)).map (·.2) } := by
  induction routes with
  | nil => intro sync _; simp
  | cons route routes ih =>
    intro sync href
    rw [List.foldl_cons, GroupSync.offer_eq, href]
    by_cases hr : route.1.referenceChannel = r
    · rw [if_pos (by simp [hr]), ih ?_]
      · simp [hr]
      · rw [AverageGroup.reference] at href ⊢
        cases hm : sync.group.members with
        | nil => rw [hm] at href; cases href
        | cons m ms => simpa [hm] using href
    · rw [if_neg (by simpa using fun h => hr h.symm), ih href]
      simp [hr]

variable {plan : RoutingPlan} {rest : List TransferRoute} {first : TransferRoute}

theorem capped_cons
    (h : plan.routes = first :: rest) : ∃ later, plan.capped = (first, 0) :: later := by
  refine ⟨(rest.take 7).zipIdx 1, ?_⟩
  rw [RoutingPlan.capped, h]
  rfl

/-- **The loop in closed form.** The members are the routes on the reference of the first one. -/
theorem rebuildMembership_eq (old : AverageGroup) (h : plan.routes = first :: rest) :
    rebuildMembership old plan =
      { group :=
          { members := (plan.cappedOn first.referenceChannel).map (memberOf old)
            solo := if 0 ≤ old.solo then old.solo else -1 }
        lastTfIndices := (plan.cappedOn first.referenceChannel).map (·.1.tfIndex)
        memberAnalyserIndices := (plan.cappedOn first.referenceChannel).map (·.2) } := by
  obtain ⟨later, hcap⟩ := capped_cons h
  rw [rebuildMembership, RoutingPlan.cappedOn, hcap, List.foldl_cons, GroupSync.offer_eq,
    foldl_offer_eq old later (r := first.referenceChannel) (by rfl)]
  by_cases hsolo : 0 ≤ old.solo
  · simp [hsolo, AverageGroup.setSolo, AverageGroup.reference]
  · simp [hsolo, AverageGroup.reference]

/-! ### One call -/

variable {s : GroupSync} {r : ℕ}

theorem sync_nil (hs : s.Consistent) (h : plan.routes = []) :
    (syncAverageGroupMembership s.group s.lastTfIndices plan).group.members = [] ∧
      (syncAverageGroupMembership s.group s.lastTfIndices plan).lastTfIndices = [] ∧
      (syncAverageGroupMembership s.group s.lastTfIndices plan).memberAnalyserIndices = [] := by
  simp only [syncAverageGroupMembership, h]
  by_cases hlast : s.lastTfIndices = []
  · have hmem : s.group.members = [] := List.map_eq_nil_iff.mp (hs.tags.symm.trans hlast)
    rw [if_pos hlast]
    exact ⟨hmem, hlast, rfl⟩
  · rw [if_neg hlast]
    exact ⟨rfl, rfl, rfl⟩

theorem sync_cons (s : GroupSync) (h : plan.routes = first :: rest) :
    syncAverageGroupMembership s.group s.lastTfIndices plan =
      if (plan.cappedOn (s.group.reference.getD first.referenceChannel)).map (·.1.tfIndex) =
          s.lastTfIndices then
        ⟨s.group, s.lastTfIndices,
          (plan.cappedOn (s.group.reference.getD first.referenceChannel)).map (·.2)⟩
      else rebuildMembership s.group plan := by
  simp only [syncAverageGroupMembership, h]
  rfl

theorem cappedOn_head (h : plan.routes = first :: rest) :
    ∃ later, plan.cappedOn first.referenceChannel = (first, 0) :: later := by
  obtain ⟨later, hcap⟩ := capped_cons h
  exact ⟨later.filter (·.1.referenceChannel = first.referenceChannel), by
    rw [RoutingPlan.cappedOn, hcap, List.filter_cons_of_pos (by simp)]⟩

theorem referenceChannel_of_mem_cappedOn {route : TransferRoute × ℕ}
    (h : route ∈ plan.cappedOn r) : route.1.referenceChannel = r := by
  simpa using (List.mem_filter.mp h).2

theorem rebuildMembership_reference (old : AverageGroup) (h : plan.routes = first :: rest) :
    (rebuildMembership old plan).group.reference = some first.referenceChannel := by
  obtain ⟨later, hon⟩ := cappedOn_head h
  rw [rebuildMembership_eq old h, AverageGroup.reference, hon]
  rfl

theorem rebuildMembership_consistent (old : AverageGroup) (h : plan.routes = first :: rest) :
    (rebuildMembership old plan).Consistent := by
  have href := rebuildMembership_reference old h
  refine ⟨?_, fun r hr m hm => ?_⟩
  · rw [rebuildMembership_eq old h, List.map_map]
    rfl
  · obtain rfl : first.referenceChannel = r := Option.some.inj (href.symm.trans hr)
    rw [rebuildMembership_eq old h] at hm
    obtain ⟨route, hroute, rfl⟩ := List.mem_map.mp hm
    exact referenceChannel_of_mem_cappedOn hroute

/-- What a call leaves behind is consistent again. -/
theorem sync_consistent (hs : s.Consistent) (plan : RoutingPlan) :
    (syncAverageGroupMembership s.group s.lastTfIndices plan).Consistent := by
  match h : plan.routes with
  | [] =>
    obtain ⟨hmem, hlast, -⟩ := sync_nil hs h
    refine ⟨by rw [hmem, hlast]; rfl, fun r _ m hm => ?_⟩
    rw [hmem] at hm
    exact absurd hm List.not_mem_nil
  | first :: rest =>
    rw [sync_cons s h]
    split
    · exact ⟨hs.tags, hs.shared⟩
    · exact rebuildMembership_consistent s.group h

/-- Making the call again changes nothing: what it left behind is what it predicts. -/
theorem sync_again (hs : s.Consistent) (plan : RoutingPlan) {t : GroupSync}
    (ht : syncAverageGroupMembership s.group s.lastTfIndices plan = t) :
    syncAverageGroupMembership t.group t.lastTfIndices plan = t := by
  match h : plan.routes with
  | [] =>
    have hlast := (sync_nil hs h).2.1
    have hidx := (sync_nil hs h).2.2
    rw [ht] at hlast hidx
    obtain ⟨group, last, indices⟩ := t
    obtain rfl : last = [] := hlast
    obtain rfl : indices = [] := hidx
    simp only [syncAverageGroupMembership, h, if_true]
  | first :: rest =>
    rw [sync_cons s h] at ht
    by_cases hpred : (plan.cappedOn (s.group.reference.getD first.referenceChannel)).map
        (·.1.tfIndex) = s.lastTfIndices
    · rw [if_pos hpred] at ht
      subst ht
      exact (sync_cons s h).trans (if_pos hpred)
    · rw [if_neg hpred] at ht
      subst ht
      rw [sync_cons _ h, rebuildMembership_reference _ h, Option.getD_some]
      rw [if_pos (by rw [rebuildMembership_eq _ h]), rebuildMembership_eq _ h]

theorem sync_trims (hs : s.Consistent) (plan : RoutingPlan) {tf : ℕ}
    {old new : AverageGroupMember} (hold : s.group.members.filter (·.tfIndex = tf) = [old])
    (hnew : (syncAverageGroupMembership s.group s.lastTfIndices plan).group.members.filter
      (·.tfIndex = tf) = [new]) : new.trim = old.trim := by
  match h : plan.routes with
  | [] =>
    rw [(sync_nil hs h).1] at hnew
    cases hnew
  | first :: rest =>
    rw [sync_cons s h] at hnew
    split at hnew
    · obtain rfl : old = new := by simpa using hold.symm.trans hnew
      rfl
    · have hmem : new ∈ (rebuildMembership s.group plan).group.members.filter (·.tfIndex = tf) := by
        rw [hnew]
        exact List.mem_cons_self
      rw [rebuildMembership_eq _ h] at hmem
      obtain ⟨hin, htag⟩ := List.mem_filter.mp hmem
      obtain ⟨route, -, rfl⟩ := List.mem_map.mp hin
      have htf : route.1.tfIndex = tf := by simpa [memberOf] using htag
      show s.group.trimOf route.1.tfIndex = old.trim
      rw [AverageGroup.trimOf, htf, ← List.head?_filter, hold]
      rfl

theorem map_memberOf (old : AverageGroup) (routes : List (TransferRoute × ℕ)) :
    (routes.map (memberOf old)).map (fun m => (m.tfIndex, m.referenceChannel)) =
      routes.map fun route => (route.1.tfIndex, route.1.referenceChannel) := by
  rw [List.map_map]
  rfl

theorem map_key_of_shared {members : List AverageGroupMember} {routes : List (TransferRoute × ℕ)}
    (hm : ∀ m ∈ members, m.referenceChannel = r)
    (hr : ∀ route ∈ routes, route.1.referenceChannel = r)
    (htags : members.map (·.tfIndex) = routes.map (·.1.tfIndex)) :
    members.map (fun m => (m.tfIndex, m.referenceChannel)) =
      routes.map fun route => (route.1.tfIndex, route.1.referenceChannel) := by
  have hleft : members.map (fun m => (m.tfIndex, m.referenceChannel)) =
      (members.map (·.tfIndex)).map fun tf => (tf, r) := by
    rw [List.map_map]
    exact List.map_congr_left fun m hmem => by rw [hm m hmem]; rfl
  have hright : routes.map (fun route => (route.1.tfIndex, route.1.referenceChannel)) =
      (routes.map (·.1.tfIndex)).map fun tf => (tf, r) := by
    rw [List.map_map]
    exact List.map_congr_left fun route hmem => by rw [hr route hmem]; rfl
  rw [hleft, hright, htags]

theorem expectedRoutes_of_governing {g : AverageGroup}
    (h : governingReference g plan = some r) : expectedRoutes g plan = plan.cappedOn r := by
  rw [expectedRoutes, h]

/-- The members a call owes its caller, and their positions. -/
def HoldsExpected (s : GroupSync) (plan : RoutingPlan) (t : GroupSync) : Prop :=
  t.group.members.map (fun m => (m.tfIndex, m.referenceChannel)) =
      (expectedRoutes s.group plan).map (fun route => (route.1.tfIndex, route.1.referenceChannel)) ∧
    t.memberAnalyserIndices = (expectedRoutes s.group plan).map (·.2)

theorem holdsExpected_nil (hs : s.Consistent) (h : plan.routes = []) :
    HoldsExpected s plan (syncAverageGroupMembership s.group s.lastTfIndices plan) := by
  have hexp : expectedRoutes s.group plan = [] := by
    rw [expectedRoutes]
    split
    · rw [RoutingPlan.cappedOn, RoutingPlan.capped, h]
      rfl
    · rfl
  obtain ⟨hmem, -, hidx⟩ := sync_nil hs h
  rw [HoldsExpected, hmem, hidx, hexp]
  exact ⟨rfl, rfl⟩

theorem holdsExpected_skip (hs : s.Consistent) (href : s.group.reference = some r)
    (htags : (plan.cappedOn r).map (·.1.tfIndex) = s.lastTfIndices) :
    HoldsExpected s plan
      ⟨s.group, s.lastTfIndices, (plan.cappedOn r).map (·.2)⟩ := by
  have hne : plan.cappedOn r ≠ [] := by
    intro hnil
    have hmem : s.group.members = [] :=
      List.map_eq_nil_iff.mp (hs.tags.symm.trans (htags.symm.trans (by rw [hnil]; rfl)))
    rw [AverageGroup.reference, hmem] at href
    cases href
  have hgov : governingReference s.group plan = some r := by
    rw [governingReference, href]
    exact if_pos hne
  rw [HoldsExpected, expectedRoutes_of_governing hgov]
  refine ⟨?_, rfl⟩
  exact map_key_of_shared (hs.shared r href) (fun _ => referenceChannel_of_mem_cappedOn)
    (hs.tags.symm.trans htags.symm)

theorem holdsExpected_rebuild (h : plan.routes = first :: rest)
    (hgov : governingReference s.group plan = some first.referenceChannel) :
    HoldsExpected s plan (rebuildMembership s.group plan) := by
  rw [HoldsExpected, expectedRoutes_of_governing hgov, rebuildMembership_eq _ h]
  exact ⟨map_memberOf _ _, rfl⟩

/-- And only then: its members are on the reference of the first route. -/
theorem governing_of_holdsExpected_rebuild (h : plan.routes = first :: rest)
    (hgov : governingReference s.group plan = some r)
    (hexp : HoldsExpected s plan (rebuildMembership s.group plan)) :
    first.referenceChannel = r := by
  obtain ⟨later, hon⟩ := cappedOn_head h
  have hkeys := hexp.1
  rw [expectedRoutes_of_governing hgov, rebuildMembership_eq _ h, map_memberOf, hon] at hkeys
  match hr : plan.cappedOn r with
  | [] =>
    rw [hr] at hkeys
    cases hkeys
  | route :: routes =>
    rw [hr, List.map_cons, List.map_cons] at hkeys
    have hpair := (Prod.mk.inj (List.cons.inj hkeys).1).2
    rw [hpair]
    exact referenceChannel_of_mem_cappedOn (hr ▸ List.mem_cons_self)

theorem holdsExpected_iff (hs : s.Consistent) (plan : RoutingPlan) :
    HoldsExpected s plan (syncAverageGroupMembership s.group s.lastTfIndices plan) ↔
      KeepsReference s plan := by
  match h : plan.routes with
  | [] =>
    refine ⟨fun _ r _ hne => absurd ?_ hne, fun _ => holdsExpected_nil hs h⟩
    rw [RoutingPlan.cappedOn, RoutingPlan.capped, h]
    rfl
  | first :: rest =>
    have hfirst : plan.routes.head?.map (·.referenceChannel) = some first.referenceChannel := by
      rw [h]
      rfl
    rw [sync_cons s h]
    match href : s.group.reference with
    | none =>
      have hmem : s.group.members = [] := by
        rw [AverageGroup.reference, Option.map_eq_none_iff, List.head?_eq_none_iff] at href
        exact href
      obtain ⟨later, hon⟩ := cappedOn_head h
      rw [if_neg (by rw [Option.getD_none, hon, hs.tags, hmem]; simp)]
      refine ⟨fun _ r hr => ?_, fun _ => holdsExpected_rebuild h ?_⟩
      · rw [href] at hr
        cases hr
      · rw [governingReference, href]
        exact hfirst
    | some r =>
      rw [Option.getD_some]
      by_cases htags : (plan.cappedOn r).map (·.1.tfIndex) = s.lastTfIndices
      · rw [if_pos htags]
        refine ⟨fun _ r' hr' _ => .inr ?_, fun _ => holdsExpected_skip hs href htags⟩
        obtain rfl : r = r' := Option.some.inj (href.symm.trans hr')
        exact htags
      · rw [if_neg htags]
        by_cases hne : plan.cappedOn r ≠ []
        · have hgov : governingReference s.group plan = some r := by
            rw [governingReference, href]
            exact if_pos hne
          constructor
          · intro hexp r' hr' _
            obtain rfl : r = r' := Option.some.inj (href.symm.trans hr')
            exact .inl (by rw [hfirst, governing_of_holdsExpected_rebuild h hgov hexp])
          · intro hkeeps
            have hr : first.referenceChannel = r :=
              Option.some.inj (hfirst.symm.trans ((hkeeps r href hne).resolve_right htags))
            exact holdsExpected_rebuild h (hr ▸ hgov)
        · have hgov : governingReference s.group plan = some first.referenceChannel := by
            rw [governingReference, href]
            exact (if_neg hne).trans hfirst
          refine ⟨fun _ r' hr' hne' => absurd hne' ?_, fun _ => holdsExpected_rebuild h hgov⟩
          obtain rfl : r = r' := Option.some.inj (href.symm.trans hr')
          exact hne

/-- **One call, exactly.** The call does what it owes if and only if the plan keeps the group's
reference. -/
theorem syncsMembership_iff (hs : s.Consistent) (plan : RoutingPlan) :
    SyncsMembership s plan (syncAverageGroupMembership s.group s.lastTfIndices plan) ↔
      KeepsReference s plan := by
  rw [← holdsExpected_iff hs plan]
  exact ⟨fun h => ⟨h.members, h.indices⟩,
    fun h => ⟨h.1, h.2, sync_again hs plan rfl, fun tf old new => sync_trims hs plan⟩⟩

/-! ### Runs of calls -/

/-- One call after another with whatever plan there is by then, on the same group and memory. The
group may begin with members, whose trims the operator may have set. -/
def groupRuns : Machine GroupSync RoutingPlan where
  init s := s.Consistent
  step s plan := some (syncAverageGroupMembership s.group s.lastTfIndices plan)

/-- **Headline.** Along a sequence of plans every call does what it owes if and only if every plan
keeps the reference of the group it is given to. -/
theorem groupRuns_syncs_iff (s : GroupSync) (hs : s.Consistent) (plans : List RoutingPlan) :
    groupRuns.AlongSteps SyncsMembership s plans ↔
      groupRuns.AlongSteps (fun s plan _ => KeepsReference s plan) s plans := by
  refine Machine.alongSteps_iff GroupSync.Consistent ?_ ?_ hs
  · intro s plan t hs hstep _
    cases hstep
    exact sync_consistent hs plan
  · intro s plan t hs hstep
    cases hstep
    exact syncsMembership_iff hs plan

/-- A fresh group, a first plan with one pair, and a second one with another pair before it and one
more measurement after it. -/
theorem groupRuns_syncs_iff_example :
    groupRuns.AlongSteps SyncsMembership ⟨{}, [], []⟩ [{ routes := [⟨1, 1, 3⟩] }] ↔
      groupRuns.AlongSteps (fun s plan _ => KeepsReference s plan) ⟨{}, [], []⟩
        [{ routes := [⟨1, 1, 3⟩] }] :=
  groupRuns_syncs_iff _ ⟨rfl, fun _ _ _ hm => absurd hm List.not_mem_nil⟩ _

/-- **The group moves over.** It is on reference 1 with one member; a plan adds a member on
reference 1 and, on a lower measurement channel, a route on reference 0. The call leaves the group
on reference 0. -/
theorem groupRuns_leaves_reference :
    ¬ ∀ plans : List RoutingPlan, groupRuns.AlongSteps SyncsMembership ⟨{}, [], []⟩ plans := by
  intro h
  have hrun := h [{ routes := [⟨1, 1, 3⟩] }, { routes := [⟨0, 0, 2⟩, ⟨1, 1, 3⟩, ⟨1, 1, 4⟩] }]
  exact absurd ((hrun.tail rfl).head rfl).indices (by decide)

end RtaTool
