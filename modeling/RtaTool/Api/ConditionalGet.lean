import RtaTool.Api.ApiSerialise
import RtaTool.Lib.Decimal
import RtaTool.Lib.Machine

/-!
# Polling with validators

`etagFor` and `conditionalVerdict` of `ApiPolicy.cpp`, and `serve` of `ApiServer.cpp`: a client
keeps the body it was last served with its `ETag` and its sequence number, and asks again with
either. A snapshot is published under a number of its own.

## Main definitions

* `conditionalVerdict`, `serve`
* `Polling`, `polling` -- one client, and the snapshots published so far

## Main results

* `polling_current` -- **Headline.** After each poll the client holds the newest body
-/

namespace RtaTool

namespace Api

variable {D F : Type}

/-- `etagFor`. -/
def etagFor (sequence : ℕ) : Bytes := 34 :: (decimal sequence ++ [34])

/-- `Verdict`. -/
inductive Verdict
  | serve
  | notModified
  deriving DecidableEq, Repr

/-- `conditionalVerdict`. -/
def conditionalVerdict (ifNoneMatch : Bytes) (since : Option ℕ) (sequence : ℕ) : Verdict :=
  if ifNoneMatch ≠ [] then
    if ifNoneMatch = bytes "*" then .notModified
    else if ifNoneMatch = etagFor sequence then .notModified else .serve
  else
    match since with
    | some since => if since = sequence then .notModified else .serve
    | none => .serve

/-- What a response tells. -/
structure Response where
  status : ℕ
  etag : Option Bytes := none
  content : Option Bytes := none

/-- `serve(request, response, body)`, of what `latest()` gives. -/
def serve (latest : Option (Snapshot D F)) (ifNoneMatch : Bytes) (since : Option ℕ)
    (body : Snapshot D F → Bytes) : Response :=
  match latest with
  | none => { status := 503 }
  | some snapshot =>
    if conditionalVerdict ifNoneMatch since snapshot.sequence = .notModified then
      { status := 304, etag := some (etagFor snapshot.sequence) }
    else
      { status := 200, etag := some (etagFor snapshot.sequence), content := some (body snapshot) }

/-! ### The client -/

/-- What the client has kept: its validators and the body they belong to. -/
structure Kept where
  etag : Bytes
  sequence : ℕ
  content : Bytes

/-- The snapshots published, the newest first, and the client. -/
structure Polling (D F : Type) where
  published : List (Snapshot D F) := []
  kept : Option Kept := none

/-- A publication, or a poll that sends some of the validators. -/
inductive PollAct (D F : Type)
  | publish (snapshot : Snapshot D F)
  | poll (sendsEtag sendsSince : Bool)

/-- The response to a poll. -/
def Polling.response (body : Snapshot D F → Bytes) (p : Polling D F) (sendsEtag sendsSince : Bool) :
    Response :=
  serve p.published.head? (if sendsEtag then (p.kept.map (·.etag)).getD [] else [])
    (if sendsSince then p.kept.map (·.sequence) else none) body

/-- A snapshot is published under a new number; a client that is served keeps what it was served. -/
def polling (body : Snapshot D F → Bytes) : Machine (Polling D F) (PollAct D F) where
  init p := p = {}
  step p
    | .publish snapshot =>
      if snapshot.sequence ∈ p.published.map (·.sequence) then none
      else some { p with published := snapshot :: p.published }
    | .poll sendsEtag sendsSince =>
      let response := p.response body sendsEtag sendsSince
      some { p with
        kept :=
          if response.status = 200 then
            p.published.head?.map fun snapshot =>
              ⟨response.etag.getD [], snapshot.sequence, response.content.getD []⟩
          else p.kept }

theorem etagFor_injective {n m : ℕ} (h : etagFor n = etagFor m) : n = m := by
  have hdecimal := List.append_cancel_right (List.cons.inj h).2
  rw [← decimalValue_decimal n, hdecimal, decimalValue_decimal]

theorem conditionalVerdict_etagFor (n : ℕ) (since : Option ℕ) (sequence : ℕ) :
    conditionalVerdict (etagFor n) since sequence = .notModified ↔ n = sequence := by
  have hstar : etagFor n ≠ bytes "*" := by
    intro h
    have := (List.cons.inj h).1
    revert this
    decide
  rw [conditionalVerdict.eq_def, if_pos (by simp [etagFor]), if_neg hstar]
  constructor
  · intro h
    split_ifs at h with heq
    exact etagFor_injective heq
  · rintro rfl
    rw [if_pos rfl]

/-- A client is not served again exactly if it says that it has the newest snapshot. -/
theorem conditionalVerdict_kept {kept : Option Kept}
    (hetag : ∀ k, kept = some k → k.etag = etagFor k.sequence) (sendsEtag sendsSince : Bool)
    (sequence : ℕ) :
    conditionalVerdict (if sendsEtag then (kept.map (·.etag)).getD [] else [])
        (if sendsSince then kept.map (·.sequence) else none) sequence = .notModified ↔
      (sendsEtag ∨ sendsSince) ∧ kept.map (·.sequence) = some sequence := by
  cases kept with
  | none => cases sendsEtag <;> cases sendsSince <;> simp [conditionalVerdict]
  | some k =>
    simp only [Option.map_some, Option.getD_some, hetag k rfl, Option.some.injEq]
    cases sendsEtag with
    | true => simp [conditionalVerdict_etagFor]
    | false => cases sendsSince <;> simp [conditionalVerdict]

/-- What a client has kept is of one of the snapshots, and no two of these share a number. -/
structure Polling.Inv (body : Snapshot D F → Bytes) (p : Polling D F) : Prop where
  nodup : (p.published.map (·.sequence)).Nodup
  kept : ∀ kept, p.kept = some kept → ∃ snapshot ∈ p.published,
    kept = ⟨etagFor snapshot.sequence, snapshot.sequence, body snapshot⟩

section

variable {body : Snapshot D F → Bytes} {p t : Polling D F}

theorem Polling.Inv.response_eq (h : p.Inv body) {snapshot : Snapshot D F}
    (hhead : p.published.head? = some snapshot) (sendsEtag sendsSince : Bool) :
    p.response body sendsEtag sendsSince =
      if (sendsEtag ∨ sendsSince) ∧ p.kept.map (·.sequence) = some snapshot.sequence then
        ⟨304, some (etagFor snapshot.sequence), none⟩
      else ⟨200, some (etagFor snapshot.sequence), some (body snapshot)⟩ := by
  have hetag : ∀ k, p.kept = some k → k.etag = etagFor k.sequence := by
    intro k hk
    obtain ⟨old, -, rfl⟩ := h.kept k hk
    rfl
  simp only [response, hhead, serve, conditionalVerdict_kept hetag]

theorem Polling.Inv.step (h : p.Inv body) {a : PollAct D F}
    (hstep : (polling body).step p a = some t) : t.Inv body := by
  cases a with
  | publish snapshot =>
    simp only [polling] at hstep
    split_ifs at hstep with hnew
    obtain rfl := Option.some.inj hstep
    refine ⟨List.nodup_cons.mpr ⟨hnew, h.nodup⟩, fun kept hkept => ?_⟩
    obtain ⟨old, hold, heq⟩ := h.kept kept hkept
    exact ⟨old, List.mem_cons_of_mem _ hold, heq⟩
  | poll sendsEtag sendsSince =>
    obtain rfl := Option.some.inj hstep
    refine ⟨h.nodup, fun kept hkept => ?_⟩
    dsimp only at hkept
    split_ifs at hkept with hserved
    · obtain ⟨snapshot, hhead, rfl⟩ := Option.map_eq_some_iff.mp hkept
      rw [h.response_eq hhead] at hserved ⊢
      split_ifs at hserved with hsame
      · cases hserved
      · rw [if_neg hsame]
        exact ⟨snapshot, List.mem_of_mem_head? hhead, rfl⟩
    · exact h.kept kept hkept

theorem Polling.inv_of_reachable (h : (polling body).Reachable p) : p.Inv body := by
  induction h with
  | init h =>
    obtain rfl := h
    exact ⟨List.nodup_nil, fun kept hkept => by cases hkept⟩
  | step _ hstep ih => exact ih.step hstep

/-- **Headline.** In every run, whatever validators a client sends: after a poll it holds the body
of the newest snapshot, and it is told that it has it, and not served, exactly if it has sent a
validator and has it. -/
theorem polling_current (h : (polling body).Reachable p) (sendsEtag sendsSince : Bool)
    (hstep : (polling body).step p (.poll sendsEtag sendsSince) = some t) :
    t.kept.map (·.content) = p.published.head?.map body ∧
      ((p.response body sendsEtag sendsSince).status = 304 ↔
        (sendsEtag ∨ sendsSince) ∧ ∃ snapshot, p.published.head? = some snapshot ∧
          p.kept.map (·.content) = some (body snapshot) ∧
          p.kept.map (·.sequence) = some snapshot.sequence) := by
  have hinv := Polling.inv_of_reachable h
  obtain rfl := Option.some.inj hstep
  have hnewest : ∀ {snapshot}, p.published.head? = some snapshot →
      p.kept.map (·.sequence) = some snapshot.sequence →
      p.kept.map (·.content) = some (body snapshot) := by
    intro snapshot hhead hsame
    obtain ⟨kept, hkept, hsequence⟩ := Option.map_eq_some_iff.mp hsame
    obtain ⟨old, hold, rfl⟩ := hinv.kept kept hkept
    obtain rfl := List.inj_on_of_nodup_map hinv.nodup hold (List.mem_of_mem_head? hhead) hsequence
    rw [hkept]
    rfl
  cases hhead : p.published.head? with
  | none =>
    have hnone : p.kept = none := by
      cases hkept : p.kept with
      | none => rfl
      | some kept =>
        obtain ⟨old, hold, -⟩ := hinv.kept kept hkept
        rw [List.head?_eq_none_iff.mp hhead] at hold
        cases hold
    simp [hhead, hnone, Polling.response, serve]
  | some snapshot =>
    rw [hinv.response_eq hhead]
    by_cases hsame : (sendsEtag ∨ sendsSince) ∧ p.kept.map (·.sequence) = some snapshot.sequence
    · have hcontent := hnewest hhead hsame.2
      rw [if_pos hsame]
      exact ⟨hcontent, iff_of_true rfl ⟨hsame.1, snapshot, rfl, hcontent, hsame.2⟩⟩
    · rw [if_neg hsame]
      refine ⟨rfl, iff_of_false (by simp) ?_⟩
      rintro ⟨hsends, other, hother, -, hsequence⟩
      obtain rfl := Option.some.inj hother
      exact hsame ⟨hsends, hsequence⟩

end

theorem polling_current_first : ∃ t, (polling fun _ : Snapshot Unit Unit => bytes "null").step
      ⟨[⟨1, (), 0, 0, [], [], none, none, false, 0, 0, none, []⟩], none⟩
      (.poll true false) = some t ∧ t.kept.map (·.content) = some (bytes "null") :=
  ⟨_, rfl, (polling_current (.step (.init rfl) (a := .publish _) rfl) true false rfl).1⟩

end Api

end RtaTool
