import Kubernetes.Registry.Service.Alloc

/-! What `allocateCreate` leaves in the allocators.

Cluster-IP allocation is tracked family by family (`IPTracks`): a family's range is either
untouched or holds one more address, which was free, in the range and parses. Node-port
allocation is tracked by the operation's `Tracks`. From these, a dry run changes nothing, a
successful create is undone exactly by its transaction's `Revert`, and a failed create
leaves nothing behind except the cluster IPs of the families allocated before the family
that failed: `txnAllocClusterIPs` drops them without a release.
-/

set_option autoImplicit false
set_option linter.dupNamespace false

namespace Kubernetes.Registry.Service.Storage

open Kubernetes.Library

namespace Allocators

/-- The addresses a family's range holds. -/
def ipAllocated (al : Allocators) (family : Family) : Finset String :=
  match al.serviceIPAllocatorsByFamily family with
  | some range => range.allocated
  | none => ∅

end Allocators

/-- The ranges hand out free addresses, and every address of a range parses. -/
def RangesLawful (parseIP : String → Option Family) (ranges : Family → Option Range) : Prop :=
  ∀ family range, ranges family = some range →
    range.toPool.Lawful ∧ ∀ ip, range.contains ip = true → parseIP ip ≠ none

/-- A Go map keyed by family is visited once per key: the order lists every family once. -/
def IterationOrder (order : List Family) : Prop := order.Nodup ∧ ∀ family, family ∈ order

section Tracking

variable (parseIP : String → Option Family)

/-- The range of one family after a live allocation pass from `start`: untouched when no
address was allocated for it, and otherwise `start`'s range with the allocated address. -/
def RangeTracks (start current : Option Range) : Option String → Prop
  | none => current = start
  | some ip => ∃ range, start = some range ∧ range.contains ip = true ∧ ip ∉ range.allocated ∧
      parseIP ip ≠ none ∧ current = some { range with allocated := insert ip range.allocated }

def IPTracks (start : Family → Option Range) (allocated : Family → Option String)
    (current : Family → Option Range) : Prop :=
  ∀ family, RangeTracks parseIP (start family) (current family) (allocated family)

variable {parseIP}

theorem ipTracks_refl (ranges : Family → Option Range) : IPTracks parseIP ranges (fun _ => none) ranges :=
  fun _ => rfl

theorem IPTracks.eq_start {start current : Family → Option Range}
    (tracks : IPTracks parseIP start (fun _ => none) current) : current = start :=
  funext tracks

/-- Only the ranges of the allocators differ. -/
def RangesOnly (al next : Allocators) : Prop :=
  next = { al with serviceIPAllocatorsByFamily := next.serviceIPAllocatorsByFamily }

theorem RangesOnly.refl (al : Allocators) : RangesOnly al al := rfl

theorem RangesOnly.trans {al middle next : Allocators} (first : RangesOnly al middle)
    (second : RangesOnly middle next) : RangesOnly al next := by
  unfold RangesOnly at *
  rw [second, first]

theorem rangesOnly_setRange (al : Allocators) (family : Family) (range : Range) :
    RangesOnly al (al.setRange family range) := rfl

theorem allocIP_live_eq_ok {service : Service} {al next : Allocators} {family : Family}
    {ip address : String} (allocated : allocIP parseIP service false al family ip = .ok (address, next)) :
    ∃ range, al.serviceIPAllocatorsByFamily family = some range ∧
      ((ip = "" ∧ range.next range.allocated = some address) ∨
        (address = ip ∧ parseIP ip ≠ none ∧ range.contains ip = true ∧ ip ∉ range.allocated)) ∧
      next = al.setRange family { range with allocated := insert address range.allocated } := by
  unfold allocIP at allocated
  split at allocated
  · cases allocated
  · rename_i range found
    refine ⟨range, found, ?_⟩
    split at allocated
    · rename_i empty
      simp only [Range.allocateNext, Bool.false_eq_true, if_false] at allocated
      split at allocated
      · cases allocated
      · rename_i chosen pool taken
        obtain ⟨⟨handed, pool⟩, nextOk, same⟩ := map_eq_ok.mp taken
        obtain ⟨handedNext, rfl⟩ := Pool.allocateNext_eq_ok.mp nextOk
        simp only [Prod.mk.injEq] at same allocated
        obtain ⟨rfl, rfl⟩ := same
        obtain ⟨rfl, rfl⟩ := allocated
        exact ⟨.inl ⟨empty, handedNext⟩, rfl⟩
    · rename_i notEmpty
      split at allocated
      · cases allocated
      · rename_i parses
        simp only [Range.allocate, Bool.false_eq_true, if_false] at allocated
        split at allocated
        · cases allocated
        · rename_i pool taken
          obtain ⟨pool, allocateOk, same⟩ := map_eq_ok.mp taken
          obtain ⟨inRange, free, rfl⟩ := Pool.allocate_eq_ok.mp allocateOk
          simp only [Except.ok.injEq, Prod.mk.injEq] at allocated
          obtain ⟨rfl, rfl⟩ := allocated
          subst same
          exact ⟨.inr ⟨rfl, parses, inRange, free⟩, rfl⟩

theorem IPTracks.allocIP {start : Family → Option Range} (lawful : RangesLawful parseIP start)
    {allocated : Family → Option String} {al next : Allocators} {service : Service} {family : Family}
    {ip address : String} (tracks : IPTracks parseIP start allocated al.serviceIPAllocatorsByFamily)
    (fresh : allocated family = none)
    (stepped : allocIP parseIP service false al family ip = .ok (address, next)) :
    IPTracks parseIP start (Function.update allocated family (some address))
      next.serviceIPAllocatorsByFamily := by
  obtain ⟨range, found, chosen, rfl⟩ := allocIP_live_eq_ok stepped
  have untouched : al.serviceIPAllocatorsByFamily family = start family := by
    have atFamily := tracks family
    rw [fresh] at atFamily
    exact atFamily
  rw [untouched] at found
  obtain ⟨poolLawful, parses⟩ := lawful family range found
  intro other
  by_cases same : other = family
  · subst same
    simp only [Allocators.setRange, Function.update_self]
    rcases chosen with ⟨_, handed⟩ | ⟨rfl, parsed, inRange, free⟩
    · obtain ⟨inRange, free⟩ := poolLawful _ _ handed
      exact ⟨range, found, inRange, free, parses _ inRange, rfl⟩
    · exact ⟨range, found, inRange, free, parsed, rfl⟩
  · simp only [Allocators.setRange, Function.update_of_ne same]
    exact tracks other

theorem allocIPs_live {start : Family → Option Range} (lawful : RangesLawful parseIP start)
    (service : Service) (toAlloc : Family → Option String) :
    ∀ (order : List Family) (allocated : Family → Option String) (al : Allocators),
      order.Nodup → (∀ family ∈ order, allocated family = none) →
      IPTracks parseIP start allocated al.serviceIPAllocatorsByFamily →
      IPTracks parseIP start (allocIPs parseIP service false toAlloc order allocated al).allocated
          (allocIPs parseIP service false toAlloc order allocated al).allocators.serviceIPAllocatorsByFamily ∧
        RangesOnly al (allocIPs parseIP service false toAlloc order allocated al).allocators := by
  intro order
  induction order with
  | nil => intro allocated al _ _ tracks; exact ⟨tracks, RangesOnly.refl al⟩
  | cons family rest ih =>
    intro allocated al distinct fresh tracks
    obtain ⟨notInRest, restDistinct⟩ := List.nodup_cons.mp distinct
    have restFresh : ∀ other ∈ rest, allocated other = none :=
      fun other member => fresh other (List.mem_cons_of_mem family member)
    simp only [allocIPs]
    split
    · exact ih allocated al restDistinct restFresh tracks
    · rename_i ip _
      split
      · exact ⟨tracks, RangesOnly.refl al⟩
      · rename_i address next stepped
        have stepTracks := tracks.allocIP lawful (fresh family List.mem_cons_self) stepped
        have stillFresh : ∀ other ∈ rest, Function.update allocated family (some address) other = none := by
          intro other member
          have differs : other ≠ family := fun same => notInRest (same ▸ member)
          rw [Function.update_of_ne differs]
          exact restFresh other member
        obtain ⟨loopTracks, loopOnly⟩ := ih _ next restDistinct stillFresh stepTracks
        obtain ⟨range, _, _, rfl⟩ := allocIP_live_eq_ok stepped
        exact ⟨loopTracks, (rangesOnly_setRange al family _).trans loopOnly⟩

theorem allocClusterIPs_live (service : Service) {order : List Family} {al : Allocators}
    (lawful : RangesLawful parseIP al.serviceIPAllocatorsByFamily) (distinct : order.Nodup) :
    IPTracks parseIP al.serviceIPAllocatorsByFamily (allocClusterIPs parseIP service false order al).1.allocated
        (allocClusterIPs parseIP service false order al).1.allocators.serviceIPAllocatorsByFamily ∧
      RangesOnly al (allocClusterIPs parseIP service false order al).1.allocators := by
  unfold allocClusterIPs
  split
  · exact ⟨ipTracks_refl _, RangesOnly.refl al⟩
  · split
    · exact ⟨ipTracks_refl _, RangesOnly.refl al⟩
    · -- both outcomes of the loop return its result
      dsimp only
      split <;>
        exact allocIPs_live lawful _ _ order (fun _ => none) al distinct (fun _ _ => rfl)
          (ipTracks_refl _)

theorem releaseIPs_restores {start : Family → Option Range} (toRelease : Family → Option String) :
    ∀ (order : List Family) (al : Allocators), order.Nodup →
      IPTracks parseIP start (fun family => if family ∈ order then toRelease family else none)
        al.serviceIPAllocatorsByFamily →
      releaseIPs parseIP toRelease order al = (none, { al with serviceIPAllocatorsByFamily := start }) := by
  intro order
  induction order with
  | nil =>
    intro al _ tracks
    have restored : al.serviceIPAllocatorsByFamily = start :=
      IPTracks.eq_start (by simpa using tracks)
    rw [← restored]
    rfl
  | cons family rest ih =>
    intro al distinct tracks
    obtain ⟨notInRest, restDistinct⟩ := List.nodup_cons.mp distinct
    have restricted : ∀ other, other ≠ family →
        (if other ∈ family :: rest then toRelease other else none) =
          (if other ∈ rest then toRelease other else none) := by
      intro other differs
      simp [differs]
    simp only [releaseIPs]
    cases mapped : toRelease family with
    | none =>
      apply ih al restDistinct
      intro other
      have atOther := tracks other
      by_cases same : other = family
      · subst same
        simpa [mapped, notInRest] using atOther
      · beta_reduce at atOther ⊢
        rwa [restricted other same] at atOther
    | some ip =>
      obtain ⟨range, started, inRange, free, parses, current⟩ := by
        simpa [RangeTracks, mapped] using tracks family
      simp only [current, parses, if_false, Range.release_insert inRange free]
      rw [ih (al.setRange family range) restDistinct ?_]
      · rfl
      · intro other
        by_cases same : other = family
        · subst same
          simp [RangeTracks, Allocators.setRange, notInRest, started]
        · have atOther := tracks other
          simp only [Allocators.setRange, Function.update_of_ne same]
          beta_reduce at atOther ⊢
          rwa [restricted other same] at atOther

theorem releaseIPs_restores_all {start : Family → Option Range} {allocated : Family → Option String}
    {order : List Family} (iteration : IterationOrder order) {al : Allocators}
    (tracks : IPTracks parseIP start allocated al.serviceIPAllocatorsByFamily) :
    (releaseIPs parseIP allocated order al).2 = { al with serviceIPAllocatorsByFamily := start } := by
  -- every family is in the order, so the map is released in full
  have covered : (fun family => if family ∈ order then allocated family else none) = allocated :=
    funext fun family => by simp [iteration.2 family]
  rw [releaseIPs_restores allocated order al iteration.1 (covered ▸ tracks)]

theorem txnAllocClusterIPs_live {service : Service} {order : List Family} {al : Allocators}
    (lawful : RangesLawful parseIP al.serviceIPAllocatorsByFamily) (distinct : order.Nodup) :
    ∃ allocated : Family → Option String,
      IPTracks parseIP al.serviceIPAllocatorsByFamily allocated
          (txnAllocClusterIPs parseIP service false order al).2.serviceIPAllocatorsByFamily ∧
        RangesOnly al (txnAllocClusterIPs parseIP service false order al).2 ∧
        ∀ txn created, (txnAllocClusterIPs parseIP service false order al).1 = .ok (txn, created) →
          txn.revert = fun al => (releaseIPs parseIP allocated order al).2 := by
  obtain ⟨tracks, only⟩ := allocClusterIPs_live service lawful distinct
  unfold txnAllocClusterIPs
  generalize allocClusterIPs parseIP service false order al = result at tracks only
  obtain ⟨allocation, created⟩ := result
  refine ⟨allocation.allocated, ?_⟩
  dsimp only
  split
  · exact ⟨tracks, only, fun _ _ failed => by cases failed⟩
  · refine ⟨tracks, only, ?_⟩
    intro txn created returned
    simp only [Except.ok.injEq, Prod.mk.injEq] at returned
    rw [← returned.1]
    rfl

end Tracking

/-! ## Node ports -/

section NodePorts

open PortAllocationOperation

theorem initNodePort_calls {service : Service} {state next : NodePortsState} {i : ℕ}
    (stepped : initNodePort service state i = .ok next) :
    Calls (state.op, state.pa) (next.op, next.pa) := by
  unfold initNodePort at stepped
  dsimp only at stepped
  split at stepped
  · cases stepped
    exact .refl
  · split at stepped
    · cases stepped
      exact .refl
    · split at stepped
      · -- the first entry with this port number: a requested port or the next free one
        split at stepped
        · split at stepped
          · cases stepped
          · rename_i op pa allocated
            cases stepped
            exact Calls.allocate allocated
        · split at stepped
          · cases stepped
          · rename_i port op pa allocated
            cases stepped
            exact Calls.allocateNext allocated
      · split at stepped
        · split at stepped
          · cases stepped
            exact .refl
          · split at stepped
            · cases stepped
            · rename_i op pa allocated
              cases stepped
              exact Calls.allocate allocated
        · cases stepped
          exact .refl

theorem initNodePortsFrom_calls (service : Service) (indices : List ℕ) :
    ∀ state : NodePortsState, Calls (state.op, state.pa)
      ((initNodePortsFrom service indices state).1.op, (initNodePortsFrom service indices state).1.pa) := by
  induction indices with
  | nil => intro state; exact .refl
  | cons i rest ih =>
    intro state
    simp only [initNodePortsFrom]
    split
    · exact .refl
    · rename_i next stepped
      exact (initNodePort_calls stepped).trans (ih next)

theorem initServiceNodePorts_calls (service : Service) (op : PortAllocationOperation) (pa : Pool ℕ) :
    Calls (op, pa) ((initServiceNodePorts service op pa).1.op, (initServiceNodePorts service op pa).1.pa) := by
  unfold initServiceNodePorts initNodePorts
  split
  · exact initNodePortsFrom_calls service _ ⟨service.ports, fun _ => 0, op, pa⟩
  · exact .refl

theorem allocHealthCheckNodePort_calls {service created : Service} {op next : PortAllocationOperation}
    {pa after : Pool ℕ} (allocated : allocHealthCheckNodePort service op pa = .ok (created, next, after)) :
    Calls (op, pa) (next, after) := by
  unfold allocHealthCheckNodePort at allocated
  split at allocated
  · split at allocated
    · cases allocated
    · rename_i op pa taken
      cases allocated
      exact Calls.allocate taken
  · split at allocated
    · cases allocated
    · rename_i port op pa taken
      cases allocated
      exact Calls.allocateNext taken

theorem txnAllocNodePorts_calls (service : Service) (dryRun : Bool) (al : Allocators) :
    ∃ op pa, Calls (startOperation dryRun, al.serviceNodePorts) (op, pa) ∧
      ((∃ err, txnAllocNodePorts service dryRun al =
          (.error err, { al with serviceNodePorts := op.finish pa })) ∨
        ∃ created, txnAllocNodePorts service dryRun al =
          (.ok (nodePortsTransaction op, created), { al with serviceNodePorts := pa })) := by
  have looped := initServiceNodePorts_calls service (startOperation dryRun) al.serviceNodePorts
  unfold txnAllocNodePorts
  generalize initServiceNodePorts service (startOperation dryRun) al.serviceNodePorts = result at looped
  obtain ⟨state, err⟩ := result
  cases err with
  | some err => exact ⟨state.op, state.pa, looped, .inl ⟨err, rfl⟩⟩
  | none =>
    dsimp only
    split
    · split
      · rename_i message _
        exact ⟨state.op, state.pa, looped, .inl ⟨.internal message, rfl⟩⟩
      · rename_i created op pa allocated
        exact ⟨op, pa, looped.trans (allocHealthCheckNodePort_calls allocated), .inr ⟨created, rfl⟩⟩
    · exact ⟨state.op, state.pa, looped, .inr ⟨_, rfl⟩⟩

theorem txnAllocNodePorts_dryRun (service : Service) (al : Allocators) :
    (txnAllocNodePorts service true al).2 = al ∧
      ∀ txn created, (txnAllocNodePorts service true al).1 = .ok (txn, created) →
        ∀ current, txn.commit current = current ∧ txn.revert current = current := by
  obtain ⟨op, pa, calls, outcome⟩ := txnAllocNodePorts_calls service true al
  obtain ⟨unchanged, dry⟩ := calls.dryRun rfl
  dsimp only at unchanged dry
  -- the operation stays a dry run, so neither callback touches the allocator
  have untouched : ∀ current, (nodePortsTransaction op).commit current = current ∧
      (nodePortsTransaction op).revert current = current := by
    intro current
    simp [nodePortsTransaction, commit, finish, rollback, dry]
  rcases outcome with ⟨_, returned⟩ | ⟨_, returned⟩
  · rw [returned]
    refine ⟨by simp [finish_dryRun dry, unchanged], fun _ _ failed => by cases failed⟩
  · rw [returned]
    refine ⟨by simp [unchanged], ?_⟩
    intro txn created succeeded
    simp only [Except.ok.injEq, Prod.mk.injEq] at succeeded
    rw [← succeeded.1]
    exact untouched

end NodePorts

/-! ## Dry runs of cluster-IP allocation -/

section DryRun

variable {parseIP : String → Option Family}

theorem Allocators.setRange_self {al : Allocators} {family : Family} {range : Range}
    (found : al.serviceIPAllocatorsByFamily family = some range) : al.setRange family range = al := by
  unfold Allocators.setRange
  rw [← found, Function.update_eq_self]

theorem allocIP_dryRun_eq_ok {service : Service} {al next : Allocators} {family : Family}
    {ip address : String} (stepped : allocIP parseIP service true al family ip = .ok (address, next)) :
    next = al := by
  unfold allocIP at stepped
  split at stepped
  · cases stepped
  · rename_i range found
    split at stepped
    · simp only [Range.allocateNext, if_true, Except.ok.injEq, Prod.mk.injEq] at stepped
      rw [← stepped.2, Allocators.setRange_self found]
    · split at stepped
      · cases stepped
      · split at stepped
        · cases stepped
        · rename_i allocatedRange dryAllocated
          simp only [Range.allocate, if_true] at dryAllocated
          split at dryAllocated
          · cases dryAllocated
            simp only [Except.ok.injEq, Prod.mk.injEq] at stepped
            rw [← stepped.2, Allocators.setRange_self found]
          · cases dryAllocated

theorem allocIPs_dryRun (service : Service) (toAlloc : Family → Option String) :
    ∀ (order : List Family) (allocated : Family → Option String) (al : Allocators),
      (allocIPs parseIP service true toAlloc order allocated al).allocators = al := by
  intro order
  induction order with
  | nil => intro allocated al; rfl
  | cons family rest ih =>
    intro allocated al
    simp only [allocIPs]
    split
    · exact ih allocated al
    · split
      · rfl
      · rename_i address next stepped
        rw [ih, allocIP_dryRun_eq_ok stepped]

theorem txnAllocClusterIPs_dryRun (service : Service) (order : List Family) (al : Allocators) :
    (txnAllocClusterIPs parseIP service true order al).2 = al ∧
      ∀ txn created, (txnAllocClusterIPs parseIP service true order al).1 = .ok (txn, created) →
        ∀ current, txn.commit current = current ∧ txn.revert current = current := by
  have unchanged : (allocClusterIPs parseIP service true order al).1.allocators = al := by
    unfold allocClusterIPs
    split
    · rfl
    · split
      · rfl
      · dsimp only
        split <;> exact allocIPs_dryRun _ _ _ _ al
  unfold txnAllocClusterIPs
  generalize allocClusterIPs parseIP service true order al = result at unchanged
  obtain ⟨allocation, created⟩ := result
  dsimp only at unchanged ⊢
  split
  · exact ⟨unchanged, fun _ _ failed => by cases failed⟩
  · refine ⟨unchanged, ?_⟩
    intro txn created returned current
    simp only [Except.ok.injEq, Prod.mk.injEq] at returned
    rw [← returned.1]
    exact ⟨rfl, rfl⟩

end DryRun

/-! ## Create -/

section Create

variable {parseIP : String → Option Family} {validate : Service → List FieldError}

/-- A dry-run create writes no allocator, and its transaction does nothing. -/
theorem allocateCreate_dryRun (order : List Family) (service : Service) (al : Allocators) :
    (allocateCreate parseIP validate order service true al).2 = al ∧
      ∀ txn created, (allocateCreate parseIP validate order service true al).1 = .ok (txn, created) →
        ∀ current, txn.commit current = current ∧ txn.revert current = current := by
  unfold allocateCreate
  split
  · exact ⟨rfl, fun _ _ failed => by cases failed⟩
  · rename_i defaulted _
    obtain ⟨ipUnchanged, ipIdle⟩ := @txnAllocClusterIPs_dryRun parseIP defaulted order al
    generalize txnAllocClusterIPs parseIP defaulted true order al = ipResult at ipUnchanged ipIdle
    obtain ⟨ipOutcome, withIPs⟩ := ipResult
    dsimp only at ipUnchanged ipIdle
    subst ipUnchanged
    cases ipOutcome with
    | error err => exact ⟨rfl, fun _ _ failed => by cases failed⟩
    | ok ipCreated =>
      obtain ⟨ipTxn, withClusterIPs⟩ := ipCreated
      have ipTxnIdle := ipIdle ipTxn withClusterIPs rfl
      dsimp only
      obtain ⟨portUnchanged, portIdle⟩ := txnAllocNodePorts_dryRun withClusterIPs withIPs
      generalize txnAllocNodePorts withClusterIPs true withIPs = portResult at portUnchanged portIdle
      obtain ⟨portOutcome, withPorts⟩ := portResult
      dsimp only at portUnchanged portIdle
      subst portUnchanged
      cases portOutcome with
      | error err =>
        refine ⟨?_, fun _ _ failed => by cases failed⟩
        simp [metaTransaction, (ipTxnIdle _).2]
      | ok portCreated =>
        obtain ⟨portTxn, withNodePorts⟩ := portCreated
        have portTxnIdle := portIdle portTxn withNodePorts rfl
        refine ⟨rfl, ?_⟩
        intro txn created returned current
        simp only [Except.ok.injEq, Prod.mk.injEq] at returned
        rw [← returned.1]
        simp [metaTransaction, (ipTxnIdle _).1, (ipTxnIdle _).2, (portTxnIdle _).1, (portTxnIdle _).2]

/-! ### A dual-stack cluster whose IPv6 range is full -/

/-- A range of one address whose strategy hands it out while it is free. -/
def singleAddressRange (address cidrIP : String) (allocated : Finset String) : Range where
  validRange := cidrIP
  contains ip := ip = address
  next taken := if address ∈ taken then none else some address
  allocated := allocated
  cidrIP := cidrIP

theorem singleAddressRange_lawful (address cidrIP : String) (allocated : Finset String) :
    (singleAddressRange address cidrIP allocated).toPool.Lawful := by
  intro taken item handed
  simp only [singleAddressRange] at handed ⊢
  split at handed
  · cases handed
  · rename_i free
    cases handed
    exact ⟨by simp, free⟩

/-- A dual-stack cluster whose IPv4 range has a free address and whose IPv6 range is full. -/
def exhaustedIPv6Allocators : Allocators where
  serviceIPAllocatorsByFamily
    | .ipv4 => some (singleAddressRange "10.0.0.1" "10.0.0.0/30" ∅)
    | .ipv6 => some (singleAddressRange "fd00::1" "fd00::/126" {"fd00::1"})
  defaultServiceIPFamily := .ipv4
  serviceNodePorts :=
    { validRange := "30000-32767", contains := fun _ => false, next := fun _ => none, allocated := ∅ }

/-- A dual-stack `ClusterIP` service that names no address. -/
def dualStackService : Service where
  name := "web"
  type := .clusterIP
  clusterIP := ""
  clusterIPs := []
  ipFamilies := [.ipv4, .ipv6]
  ipFamilyPolicy := some .requireDualStack
  selector := [("app", "web")]
  ports := []
  healthCheckNodePort := 0
  externalTrafficPolicy := .cluster
  allocateLoadBalancerNodePorts := false

/-- A single-stack IPv4 `ClusterIP` service that names no address. -/
def singleStackService : Service :=
  { dualStackService with ipFamilies := [.ipv4], ipFamilyPolicy := some .singleStack }

/-- An address parser that knows the two addresses of the cluster. -/
def knownAddresses (ip : String) : Option Family :=
  if ip = "10.0.0.1" then some .ipv4 else if ip = "fd00::1" then some .ipv6 else none

theorem exhaustedIPv6Allocators_lawful
    (parses : parseIP "10.0.0.1" = some .ipv4 ∧ parseIP "fd00::1" = some .ipv6) :
    RangesLawful parseIP exhaustedIPv6Allocators.serviceIPAllocatorsByFamily := by
  intro family range found
  cases family with
  | ipv4 =>
    cases found
    refine ⟨singleAddressRange_lawful _ _ _, fun ip inRange => ?_⟩
    simp only [singleAddressRange, decide_eq_true_eq] at inRange
    simp [inRange, parses.1]
  | ipv6 =>
    cases found
    refine ⟨singleAddressRange_lawful _ _ _, fun ip inRange => ?_⟩
    simp only [singleAddressRange, decide_eq_true_eq] at inRange
    simp [inRange, parses.2]

theorem exhaustedIPv6Allocators_portsLawful : exhaustedIPv6Allocators.serviceNodePorts.Lawful := by
  intro taken item handed
  cases handed

theorem iterationOrder_ipv4_ipv6 : IterationOrder [.ipv4, .ipv6] := by
  refine ⟨by decide, fun family => ?_⟩
  cases family <;> simp

/-- A live create that succeeds is undone exactly by its transaction's `Revert`. -/
theorem allocateCreate_revert_restores {order : List Family} (iteration : IterationOrder order)
    {service created : Service} {al : Allocators} {txn : Transaction}
    (rangesLawful : RangesLawful parseIP al.serviceIPAllocatorsByFamily)
    (portsLawful : al.serviceNodePorts.Lawful)
    (succeeded : (allocateCreate parseIP validate order service false al).1 = .ok (txn, created)) :
    txn.revert (allocateCreate parseIP validate order service false al).2 = al := by
  unfold allocateCreate at succeeded ⊢
  cases defaulting : initIPFamilyFields parseIP validate al service with
  | error err =>
    simp only [defaulting] at succeeded
    cases succeeded
  | ok defaulted =>
    simp only [defaulting] at succeeded ⊢
    obtain ⟨allocated, tracks, only, revertIs⟩ :=
      @txnAllocClusterIPs_live parseIP defaulted order al rangesLawful iteration.1
    generalize txnAllocClusterIPs parseIP defaulted false order al = ipResult
      at tracks only revertIs succeeded ⊢
    obtain ⟨ipOutcome, withIPs⟩ := ipResult
    cases ipOutcome with
    | error err => cases succeeded
    | ok ipCreated =>
      obtain ⟨ipTxn, withClusterIPs⟩ := ipCreated
      have ipRevert := revertIs ipTxn withClusterIPs rfl
      dsimp only at succeeded tracks only ⊢
      obtain ⟨op, pa, calls, ⟨_, returned⟩ | ⟨_, returned⟩⟩ :=
        txnAllocNodePorts_calls withClusterIPs false withIPs
      · rw [returned] at succeeded
        cases succeeded
      · rw [returned] at succeeded ⊢
        simp only [Except.ok.injEq, Prod.mk.injEq] at succeeded
        rw [← succeeded.1]
        have samePorts : withIPs.serviceNodePorts = al.serviceNodePorts := by rw [only]
        have portTracks := (PortAllocationOperation.tracks_start withIPs.serviceNodePorts).calls (samePorts ▸ portsLawful) calls
        simp only [metaTransaction, List.foldl, ipRevert, nodePortsTransaction]
        rw [@releaseIPs_restores_all parseIP _ _ _ iteration { withIPs with serviceNodePorts := pa } tracks]
        simp only [portTracks.finish_eq, samePorts]
        rw [only]

/-- The single-stack service takes the free IPv4 address, and the create's `Revert` frees it. -/
theorem allocateCreate_revert_restores_single_stack :
    IterationOrder [.ipv4, .ipv6] ∧
      RangesLawful knownAddresses exhaustedIPv6Allocators.serviceIPAllocatorsByFamily ∧
      exhaustedIPv6Allocators.serviceNodePorts.Lawful ∧
      ∃ txn created, (allocateCreate knownAddresses (fun _ => []) [.ipv4, .ipv6] singleStackService false
          exhaustedIPv6Allocators).1 = .ok (txn, created) ∧
        txn.revert (allocateCreate knownAddresses (fun _ => []) [.ipv4, .ipv6] singleStackService false
          exhaustedIPv6Allocators).2 = exhaustedIPv6Allocators := by
  have lawful := @exhaustedIPv6Allocators_lawful knownAddresses ⟨rfl, rfl⟩
  have ok : (allocateCreate knownAddresses (fun _ => []) [.ipv4, .ipv6] singleStackService false
      exhaustedIPv6Allocators).1.toBool = true := by rfl
  cases result : (allocateCreate knownAddresses (fun _ => []) [.ipv4, .ipv6] singleStackService false
      exhaustedIPv6Allocators).1 with
  | error err =>
    rw [result] at ok
    cases ok
  | ok created =>
    refine ⟨iterationOrder_ipv4_ipv6, lawful, exhaustedIPv6Allocators_portsLawful, created.1, created.2, rfl, ?_⟩
    exact allocateCreate_revert_restores iterationOrder_ipv4_ipv6 lawful exhaustedIPv6Allocators_portsLawful result

/-- A live create that fails leaves the allocators as it found them, except for the cluster
IPs the address loop allocated before the family that failed: each range holds at most one
address more, which was free before the call. -/
theorem allocateCreate_error_leaves_cluster_ips {order : List Family} (iteration : IterationOrder order)
    {service : Service} {al : Allocators} {err : ServiceError}
    (rangesLawful : RangesLawful parseIP al.serviceIPAllocatorsByFamily)
    (portsLawful : al.serviceNodePorts.Lawful)
    (failed : (allocateCreate parseIP validate order service false al).1 = .error err) :
    ∃ allocated, IPTracks parseIP al.serviceIPAllocatorsByFamily allocated
        (allocateCreate parseIP validate order service false al).2.serviceIPAllocatorsByFamily ∧
      RangesOnly al (allocateCreate parseIP validate order service false al).2 := by
  unfold allocateCreate at failed ⊢
  cases defaulting : initIPFamilyFields parseIP validate al service with
  | error _ =>
    simp only
    exact ⟨fun _ => none, ipTracks_refl _, RangesOnly.refl al⟩
  | ok defaulted =>
    simp only [defaulting] at failed ⊢
    obtain ⟨allocated, tracks, only, revertIs⟩ :=
      @txnAllocClusterIPs_live parseIP defaulted order al rangesLawful iteration.1
    generalize txnAllocClusterIPs parseIP defaulted false order al = ipResult
      at tracks only revertIs failed ⊢
    obtain ⟨ipOutcome, withIPs⟩ := ipResult
    cases ipOutcome with
    | error _ =>
      -- the address loop failed: what it allocated stays
      exact ⟨allocated, tracks, only⟩
    | ok ipCreated =>
      obtain ⟨ipTxn, withClusterIPs⟩ := ipCreated
      have ipRevert := revertIs ipTxn withClusterIPs rfl
      dsimp only at failed tracks only ⊢
      obtain ⟨op, pa, calls, ⟨_, returned⟩ | ⟨_, returned⟩⟩ :=
        txnAllocNodePorts_calls withClusterIPs false withIPs
      · -- the node ports failed: both operations are rolled back
        rw [returned]
        have samePorts : withIPs.serviceNodePorts = al.serviceNodePorts := by rw [only]
        have portTracks :=
          (PortAllocationOperation.tracks_start withIPs.serviceNodePorts).calls (samePorts ▸ portsLawful) calls
        simp only [metaTransaction, List.foldl, ipRevert]
        rw [@releaseIPs_restores_all parseIP _ _ _ iteration
          { withIPs with serviceNodePorts := op.finish pa } tracks]
        have sameDefault : withIPs.defaultServiceIPFamily = al.defaultServiceIPFamily := by rw [only]
        refine ⟨fun _ => none, ipTracks_refl _, ?_⟩
        simp only [portTracks.finish_eq, samePorts, sameDefault]
        exact RangesOnly.refl _
      · rw [returned] at failed
        cases failed

/-- The dual-stack create fails on the full IPv6 range: it leaves the cluster changed in its
ranges only. -/
theorem allocateCreate_error_leaves_cluster_ips_dual_stack :
    IterationOrder [.ipv4, .ipv6] ∧
      RangesLawful knownAddresses exhaustedIPv6Allocators.serviceIPAllocatorsByFamily ∧
      exhaustedIPv6Allocators.serviceNodePorts.Lawful ∧
      (allocateCreate knownAddresses (fun _ => []) [.ipv4, .ipv6] dualStackService false
        exhaustedIPv6Allocators).1 = .error (.internal "failed to allocate a serviceIP: range is full") ∧
      ∃ allocated, IPTracks knownAddresses exhaustedIPv6Allocators.serviceIPAllocatorsByFamily allocated
          (allocateCreate knownAddresses (fun _ => []) [.ipv4, .ipv6] dualStackService false
            exhaustedIPv6Allocators).2.serviceIPAllocatorsByFamily ∧
        RangesOnly exhaustedIPv6Allocators
          (allocateCreate knownAddresses (fun _ => []) [.ipv4, .ipv6] dualStackService false exhaustedIPv6Allocators).2 := by
  have lawful := @exhaustedIPv6Allocators_lawful knownAddresses ⟨rfl, rfl⟩
  have failed : (allocateCreate knownAddresses (fun _ => []) [.ipv4, .ipv6] dualStackService false
      exhaustedIPv6Allocators).1 = .error (.internal "failed to allocate a serviceIP: range is full") := by
    rfl
  exact ⟨iterationOrder_ipv4_ipv6, lawful, exhaustedIPv6Allocators_portsLawful, failed,
    allocateCreate_error_leaves_cluster_ips iterationOrder_ipv4_ipv6 lawful exhaustedIPv6Allocators_portsLawful failed⟩

/-- The create fails on the full IPv6 range after the IPv4 address was allocated, and the
IPv4 address stays allocated. -/
theorem allocateCreate_error_keeps_cluster_ip (parseIP : String → Option Family)
    (validate : Service → List FieldError) (parses : parseIP "10.0.0.1" = some .ipv4 ∧
      parseIP "fd00::1" = some .ipv6) (accepts : validate dualStackService = []) :
    RangesLawful parseIP exhaustedIPv6Allocators.serviceIPAllocatorsByFamily ∧
      IterationOrder [.ipv4, .ipv6] ∧
      (allocateCreate parseIP validate [.ipv4, .ipv6] dualStackService false exhaustedIPv6Allocators).1 =
        .error (.internal "failed to allocate a serviceIP: range is full") ∧
      exhaustedIPv6Allocators.ipAllocated .ipv4 = ∅ ∧
      (allocateCreate parseIP validate [.ipv4, .ipv6] dualStackService false
        exhaustedIPv6Allocators).2.ipAllocated .ipv4 = {"10.0.0.1"} := by
  have defaulting : initIPFamilyFields parseIP validate exhaustedIPv6Allocators dualStackService =
      .ok dualStackService := by
    unfold initIPFamilyFields
    have defaulted : { dualStackService with
        ipFamilyPolicy := some (defaultIPFamilyPolicy dualStackService) } = dualStackService := rfl
    simp only [defaulted, accepts]
    rfl
  refine ⟨exhaustedIPv6Allocators_lawful parses, iterationOrder_ipv4_ipv6, ?_, rfl, ?_⟩
  · simp only [allocateCreate, defaulting]
    rfl
  · simp only [allocateCreate, defaulting]
    rfl

/-- The failing create with a parser that knows the two addresses and a validation that
accepts everything. -/
theorem allocateCreate_error_keeps_cluster_ip_sample :
    let parseIP : String → Option Family := fun ip =>
      if ip = "10.0.0.1" then some .ipv4 else if ip = "fd00::1" then some .ipv6 else none
    let validate : Service → List FieldError := fun _ => []
    (parseIP "10.0.0.1" = some .ipv4 ∧ parseIP "fd00::1" = some .ipv6) ∧
      validate dualStackService = [] ∧
      (RangesLawful parseIP exhaustedIPv6Allocators.serviceIPAllocatorsByFamily ∧
        IterationOrder [.ipv4, .ipv6] ∧
        (allocateCreate parseIP validate [.ipv4, .ipv6] dualStackService false exhaustedIPv6Allocators).1 =
          .error (.internal "failed to allocate a serviceIP: range is full") ∧
        exhaustedIPv6Allocators.ipAllocated .ipv4 = ∅ ∧
        (allocateCreate parseIP validate [.ipv4, .ipv6] dualStackService false
          exhaustedIPv6Allocators).2.ipAllocated .ipv4 = {"10.0.0.1"}) := by
  intro parseIP validate
  have parses : parseIP "10.0.0.1" = some .ipv4 ∧ parseIP "fd00::1" = some .ipv6 := ⟨rfl, rfl⟩
  exact ⟨parses, rfl, allocateCreate_error_keeps_cluster_ip parseIP validate parses rfl⟩

end Create

end Kubernetes.Registry.Service.Storage
