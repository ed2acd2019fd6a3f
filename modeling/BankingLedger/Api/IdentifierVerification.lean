import BankingLedger.Api.Authorization
import BankingLedger.Service.IdentifierHistory

set_option autoImplicit false

namespace BankingLedger

open FiniteMap ParentLinks Relation Runs

structure RoutedRequest where
  draws : ApiDraws
  consumed : Bool
  header : Option (List UInt8)
  req : ApiRequest

def listIdentifiers (partyId : PartyId) (st : ApiState) : List Identifier :=
  st.identityService.getActiveIdentifiers partyId

namespace ApiState

def after (rt : ApiRuntime) (st : ApiState) (r : RoutedRequest) : ApiState :=
  (buildRouter rt r.draws r.consumed r.header r.req st).2

def InLineage (st : ApiState) (first : Uuid) (later : Identifier) : Prop :=
  ReflTransGen (Link st.identityService.replacesOf) later.id first

def ListsVerified (st : ApiState) (partyId : PartyId) (id : Uuid) (value : String) : Prop :=
  ∃ i others, (listIdentifiers partyId st).Perm (i :: others) ∧ st.InLineage id i ∧
    i.status = .Active ∧ i.value = value ∧ ∀ other ∈ others, ¬st.InLineage id other

/-- A verification of the identifier succeeds and has the list show it. -/
def Verifies (st : ApiState) (draws : ApiDraws) (partyId : PartyId) (id : Uuid) (value : String) : Prop :=
  ∃ reply st', verifyIdentifier draws id st = (.ok reply, st') ∧ st'.ListsVerified partyId id value

def NoneActive (st : ApiState) : Prop :=
  ∀ id i, st.identityService.identifiers.lookup id = some i → i.status ≠ .Active

variable {rt : ApiRuntime} {st : ApiState} {draws : ApiDraws}

theorem NoneActive.getActiveIdentifiers (quiet : st.NoneActive) (partyId : PartyId) :
    st.identityService.getActiveIdentifiers partyId = [] := by
  simp only [IdentityService.getActiveIdentifiers, List.filter_eq_nil_iff, List.mem_filterMap,
    decide_eq_true_eq]
  intro i member
  obtain ⟨id, _, found⟩ := member
  exact quiet id i found

theorem NoneActive.findActive (quiet : st.NoneActive) (id : Uuid) :
    st.identityService.findActive id = .none := by
  simp [IdentityService.findActive, quiet.getActiveIdentifiers]

theorem NoneActive.addIdentifier (quiet : st.NoneActive) (partyId : PartyId) (req : AddIdentifierRequest) :
    (addIdentifier rt draws partyId req st).2.NoneActive := by
  simp only [BankingLedger.addIdentifier, IdentityService.addIdentifier]
  cases st.identityService.getParty partyId with
  | none => exact quiet
  | some party =>
    by_cases active : party.status = .Active
    next =>
      simp only [active, ne_eq, not_true_eq_false, if_false, identityReply]
      intro id i found
      rw [IdentityService.lookup_record] at found
      split_ifs at found
      next =>
        cases found
        simp [Identifier.new]
      next => exact quiet id i found
    next => simpa [active, identityReply] using quiet

-- Of all requests only `add_identifier` writes to the identifiers.
theorem NoneActive.after (quiet : st.NoneActive) (r : RoutedRequest) : (st.after rt r).NoneActive := by
  obtain ⟨draws, consumed, header, req⟩ := r
  cases consumed with
  | false => exact quiet
  | true =>
    simp only [ApiState.after, buildRouter, if_true]
    cases req with
    | account req => exact quiet
    | transaction req => exact quiet
    | redactBlock index =>
      simp only [route, redactBlock]
      split <;> exact quiet
    | bindRole subjectId role =>
      simp only [route, bindRole]
      split
      next => exact quiet
      next => split <;> exact quiet
    | createParty partyType legalName => exact quiet
    | addIdentifier partyId req => exact quiet.addIdentifier partyId req
    | verifyIdentifier id =>
      simp only [route, verifyIdentifier, quiet.findActive]
      exact quiet
    | replaceIdentifier id newValue =>
      simp only [route, replaceIdentifier, quiet.findActive, Option.isNone_none, if_true]
      exact quiet

theorem noneActive_new (now : Timestamp) : (ApiState.new rt.toRuntime now).NoneActive := by
  simp [NoneActive, ApiState.new, IdentityService.new]

theorem NoneActive.verifyIdentifier (quiet : st.NoneActive) (id : Uuid) :
    verifyIdentifier draws id st = (.error (.app .notFound), st) := by
  rw [BankingLedger.verifyIdentifier, quiet.findActive]

theorem NoneActive.not_verifies (quiet : st.NoneActive) (draws : ApiDraws) (partyId : PartyId) (id : Uuid)
    (value : String) : ¬st.Verifies draws partyId id value := by
  rintro ⟨reply, st', accepted, _⟩
  rw [quiet.verifyIdentifier] at accepted
  cases accepted

theorem noneActive_run (now : Timestamp) (requests : List RoutedRequest) :
    (run (ApiState.after rt) (ApiState.new rt.toRuntime now) requests).NoneActive := by
  have keep : ∀ (st : ApiState) (r : RoutedRequest), st.NoneActive → (st.after rt r).NoneActive :=
    fun st r quiet => quiet.after r
  exact run_invariant keep _ requests (noneActive_new now)

/-- Whatever requests came before, no identifier can be verified: the handler finds nothing and
changes nothing. -/
theorem no_identifier_verifies (rt : ApiRuntime) (now : Timestamp) (requests : List RoutedRequest)
    (draws : ApiDraws) (partyId : PartyId) (id : Uuid) (value : String) :
    let st := run (ApiState.after rt) (ApiState.new rt.toRuntime now) requests
    verifyIdentifier draws id st = (.error (.app .notFound), st) ∧
      ¬st.Verifies draws partyId id value := by
  intro st
  have quiet : st.NoneActive := noneActive_run now requests
  exact ⟨quiet.verifyIdentifier id, quiet.not_verifies draws partyId id value⟩

section Passport

open Sample

private def newPassport : List RoutedRequest :=
  [{ draws := apiDraws 0, consumed := true, header := none, req := .createParty "individual" "Ada" },
    { draws := apiDraws 0, consumed := true, header := none
      req := .addIdentifier (uuid 3) ⟨"passport", "AB123456", none⟩ }]

theorem new_passport_not_found :
    let before := run (ApiState.after apiRuntime) (ApiState.new apiRuntime.toRuntime ⟨0⟩) (newPassport.take 1)
    let st := run (ApiState.after apiRuntime) (ApiState.new apiRuntime.toRuntime ⟨0⟩) newPassport
    (∃ identifier, addIdentifier apiRuntime (apiDraws 0) (uuid 3) ⟨"passport", "AB123456", none⟩ before =
        (.ok (.identifier identifier), st) ∧ identifier.id = uuid 4) ∧
      (∀ later, st.identityService.replacesOf later ≠ some (uuid 4)) ∧
      ¬st.Verifies (apiDraws 10) (uuid 3) (uuid 4) "AB123456" := by
  intro before st
  refine ⟨⟨_, rfl, rfl⟩, ?_, (noneActive_run ⟨0⟩ newPassport).not_verifies _ _ _ _⟩
  intro later linked
  obtain ⟨i, found, pointer⟩ := Option.bind_eq_some_iff.mp linked
  have recorded : st.identityService.identifiers.lookup later =
      if later = uuid 4 then some _ else none := lookup_insert_eq ..
  rw [recorded] at found
  split_ifs at found
  cases found
  cases pointer

end Passport

end ApiState

end BankingLedger
