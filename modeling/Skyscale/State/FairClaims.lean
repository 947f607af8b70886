import Mathlib.Data.List.Sort
import Mathlib.Data.List.Dedup
import Mathlib.Data.String.Basic
import Skyscale.Lib.Run
import Skyscale.Lib.Rotation
import Skyscale.Lib.Database

/-!
# Fair claim turns

`AcquireFairClaimTurn` of the state manager decides which trainer may claim next.  Every call
files a ticket for its (run, owner) unless one is filed already, and asks whose turn it is: a
durable cursor rotates over the tenants that hold tickets, and within the tenant the oldest
ticket comes first.  The call is granted if that ticket is the caller's; only then is a ticket
removed and the cursor moved.

* `acquireFairClaimTurn` is the transaction, over the two tables it reads and writes;
* `IsTurn` says whose turn it is, without the loops (`isTurn_head`);
* `Polls` runs transactions one at a time, with a clock that does not go back and ticket
  numbers that grow; `polls_cases` is all that later proofs use of a call;
* `fair_claim_turns`: tenants rotate, a tenant's tickets are served in order, and the table
  advances when everybody in it polls;
* `lone_caller_granted`: with tickets filed by calls only, nobody waits for an absent owner.
-/

namespace Skyscale
namespace State
namespace FairClaims

open Lib

/-- A row of the ticket table.  (run, owner) is a unique index. -/
structure RLFairClaimTicket where
  id : Nat
  tenantID : String
  runID : String
  owner : String
  createdAt : Int
deriving DecidableEq, Repr

/-- What a lookup of a missing key yields. -/
def RLFairClaimTicket.zero : RLFairClaimTicket := ⟨0, "", "", "", 0⟩

/-- The place of a ticket in `created_at asc, id asc`. -/
def RLFairClaimTicket.rank (t : RLFairClaimTicket) : Int × Int := (t.createdAt, t.id)

/-- The two tables.  `lastTenant` is the column of the row `global`, empty until the row is
first saved. -/
structure Tables where
  tickets : List RLFairClaimTicket
  lastTenant : String
deriving DecidableEq, Repr

/-- `Create` with `OnConflict DoNothing` on the unique index. -/
def createTicket (tickets : List RLFairClaimTicket) (ticket : RLFairClaimTicket) :
    List RLFairClaimTicket :=
  if tickets.any fun t => t.runID = ticket.runID && t.owner = ticket.owner then tickets
  else tickets ++ [ticket]

/-- `Order("created_at asc, id asc")`. -/
def ordered (tickets : List RLFairClaimTicket) : List RLFairClaimTicket :=
  tickets.insertionSort fun a b => Database.Precedes a.rank b.rank

/-- The map of each tenant's first ticket, looked up at a tenant. -/
def firstByTenant (tickets : List RLFairClaimTicket) (tenantID : String) : RLFairClaimTicket :=
  (tickets.find? fun t => t.tenantID = tenantID).getD .zero

/-- The tenants that hold tickets, each once and sorted. -/
def tenants (tickets : List RLFairClaimTicket) : List String :=
  (tickets.map fun t => t.tenantID).dedup.insertionSort (· ≤ ·)

/-- The first tenant above the cursor, or else the first one.  The source marks "none above"
by the empty string, which is never above a cursor. -/
def selected (tickets : List RLFairClaimTicket) (lastTenant : String) : String :=
  (nextAfter lastTenant (tenants tickets)).getD ""

/-- `AcquireFairClaimTurn`: the ticket that was granted, if any, and the tables after the
transaction.  `id` is the number the database gives to a new ticket. -/
def acquireFairClaimTurn (db : Tables) (id : Nat) (now : Int) (tenantID runID owner : String) :
    Option RLFairClaimTicket × Tables :=
  let tickets := createTicket db.tickets ⟨id, tenantID, runID, owner, now⟩
  let chosen := selected (ordered tickets) db.lastTenant
  let head := firstByTenant (ordered tickets) chosen
  if chosen ≠ tenantID ∨ head.runID ≠ runID ∨ head.owner ≠ owner then
    (none, ⟨tickets, db.lastTenant⟩)
  else (some head, ⟨tickets.filter fun t => t.id ≠ head.id, tenantID⟩)

/-! ## Whose turn it is -/

/-- The ticket whose turn it is: the oldest one of the tenant next after the cursor. -/
structure IsTurn (tickets : List RLFairClaimTicket) (lastTenant : String)
    (head : RLFairClaimTicket) : Prop where
  mem : head ∈ tickets
  next : IsNext lastTenant {tenant | ∃ t ∈ tickets, t.tenantID = tenant} head.tenantID
  oldest : ∀ t ∈ tickets, t.tenantID = head.tenantID → Database.Precedes head.rank t.rank

variable {tickets : List RLFairClaimTicket} {tenantOf : String → String}

theorem mem_ordered {t : RLFairClaimTicket} :
    t ∈ ordered tickets ↔ t ∈ tickets :=
  (List.perm_insertionSort _ tickets).mem_iff

theorem pairwise_ordered (tickets : List RLFairClaimTicket) :
    (ordered tickets).Pairwise fun a b => Database.Precedes a.rank b.rank := by
  have : Std.Total fun a b : RLFairClaimTicket => Database.Precedes a.rank b.rank :=
    ⟨fun a b => Database.precedes_total a.rank b.rank⟩
  have : IsTrans RLFairClaimTicket fun a b => Database.Precedes a.rank b.rank :=
    ⟨fun _ _ _ h1 h2 => h1.trans h2⟩
  exact List.pairwise_insertionSort _ _

theorem mem_tenants {tenant : String} :
    tenant ∈ tenants (ordered tickets) ↔ ∃ t ∈ tickets, t.tenantID = tenant := by
  unfold tenants
  rw [(List.perm_insertionSort _ _).mem_iff, List.mem_dedup, List.mem_map]
  constructor
  · rintro ⟨t, hmem, htenant⟩
    exact ⟨t, mem_ordered.mp hmem, htenant⟩
  · rintro ⟨t, hmem, htenant⟩
    exact ⟨t, mem_ordered.mpr hmem, htenant⟩

theorem isNext_selected (hne : tickets ≠ []) (lastTenant : String) :
    IsNext lastTenant {tenant | ∃ t ∈ tickets, t.tenantID = tenant}
      (selected (ordered tickets) lastTenant) := by
  have hset : {tenant | tenant ∈ tenants (ordered tickets)}
      = {tenant | ∃ t ∈ tickets, t.tenantID = tenant} := by
    ext tenant
    exact mem_tenants
  have hsorted : (tenants (ordered tickets)).Pairwise (· ≤ ·) := List.pairwise_insertionSort _ _
  unfold selected
  cases hnext : nextAfter lastTenant (tenants (ordered tickets)) with
  | some tenant =>
    rw [← hset]
    exact isNext_nextAfter hsorted hnext
  | none =>
    obtain ⟨t, ts, rfl⟩ := List.exists_cons_of_ne_nil hne
    have hmem : t.tenantID ∈ tenants (ordered (t :: ts)) :=
      mem_tenants.mpr ⟨t, List.mem_cons_self, rfl⟩
    rw [nextAfter_eq_none hnext] at hmem
    cases hmem

/-- The first ticket of a tenant that holds one. -/
theorem firstByTenant_spec {tenant : String} (hholds : ∃ t ∈ tickets, t.tenantID = tenant) :
    firstByTenant (ordered tickets) tenant ∈ tickets ∧
      (firstByTenant (ordered tickets) tenant).tenantID = tenant ∧
      ∀ t ∈ tickets, t.tenantID = tenant →
        Database.Precedes (firstByTenant (ordered tickets) tenant).rank t.rank := by
  obtain ⟨t, hmem, htenant⟩ := hholds
  unfold firstByTenant
  cases hfind : (ordered tickets).find? fun t => t.tenantID = tenant with
  | none =>
    rw [List.find?_eq_none] at hfind
    exact absurd (decide_eq_true htenant) (hfind t (mem_ordered.mpr hmem))
  | some head =>
    obtain ⟨hhead, pre, post, hsplit, hpre⟩ := List.find?_eq_some_iff_append.mp hfind
    refine ⟨mem_ordered.mp (List.mem_of_find?_eq_some hfind), of_decide_eq_true hhead, ?_⟩
    intro other hother hsame
    have hsorted := pairwise_ordered tickets
    have hplace := mem_ordered.mpr hother
    rw [hsplit] at hsorted hplace
    -- before the first match there is no ticket of this tenant
    rcases List.mem_append.mp hplace with hbefore | hafter
    · have hnot := hpre other hbefore
      simp only [decide_eq_true hsame] at hnot
      cases hnot
    · rcases List.mem_cons.mp hafter with heq | hlater
      · rw [heq]
        exact .inr ⟨rfl, le_refl _⟩
      · exact (List.pairwise_cons.mp (List.pairwise_append.mp hsorted).2.1).1 other hlater

theorem isTurn_head (hne : tickets ≠ []) (lastTenant : String) :
    IsTurn tickets lastTenant
      (firstByTenant (ordered tickets) (selected (ordered tickets) lastTenant)) ∧
    (firstByTenant (ordered tickets) (selected (ordered tickets) lastTenant)).tenantID
      = selected (ordered tickets) lastTenant := by
  have hnext := isNext_selected hne lastTenant
  obtain ⟨hmem, htenant, holdest⟩ := firstByTenant_spec hnext.mem
  refine ⟨⟨hmem, ?_, fun t ht hsame => holdest t ht (hsame.trans htenant)⟩, htenant⟩
  rw [htenant]
  exact hnext

/-- Tickets of one number are one ticket. -/
def Numbered (tickets : List RLFairClaimTicket) : Prop :=
  ∀ a ∈ tickets, ∀ b ∈ tickets, a.id = b.id → a = b

theorem IsTurn.unique {lastTenant : String} {a b : RLFairClaimTicket} (hnumbered : Numbered tickets)
    (ha : IsTurn tickets lastTenant a) (hb : IsTurn tickets lastTenant b) : a = b := by
  have htenant := ha.next.unique hb.next
  have hab := ha.oldest b hb.mem htenant.symm
  have hba := hb.oldest a ha.mem htenant
  refine hnumbered a ha.mem b hb.mem ?_
  unfold Database.Precedes RLFairClaimTicket.rank at hab hba
  dsimp only at hab hba
  omega

theorem IsTurn.of_append {lastTenant : String} {new a b : RLFairClaimTicket}
    (hnumbered : Numbered tickets) (ha : IsTurn tickets lastTenant a)
    (hb : IsTurn (tickets ++ [new]) lastTenant b) :
    b = a ∨ b = new := by
  rcases List.mem_append.mp hb.mem with hmem | hmem
  · refine .inl (IsTurn.unique hnumbered ⟨hmem, ?_, ?_⟩ ha)
    · refine hb.next.restrict ?_ ⟨b, hmem, rfl⟩
      rintro tenant ⟨t, ht, htenant⟩
      exact ⟨t, List.mem_append_left _ ht, htenant⟩
    · exact fun t ht => hb.oldest t (List.mem_append_left _ ht)
  · exact .inr (List.mem_singleton.mp hmem)

/-! ## One call after the other -/

/-- The tables, the clock and the last ticket number that was given out. -/
structure Claims extends Tables where
  clock : Int
  serial : Nat

/-- No ticket filed and no turn taken yet. -/
def Claims.empty (clock : Int) : Claims := ⟨⟨[], ""⟩, clock, 0⟩

/-- A call and the ticket it was granted.  The caller is told whether there is one. -/
structure Poll where
  tenantID : String
  runID : String
  owner : String
  granted : Option RLFairClaimTicket

/-- A turn given to a tenant. -/
def Poll.GrantedTo (p : Poll) (tenant : String) : Prop :=
  ∃ t, p.granted = some t ∧ t.tenantID = tenant

/-- One transaction.  The clock does not go back, and ticket numbers are not used again. -/
def Polls (s : Claims) (p : Poll) (s' : Claims) : Prop :=
  s.clock ≤ s'.clock ∧ s.serial < s'.serial ∧
    acquireFairClaimTurn s.toTables s'.serial s'.clock p.tenantID p.runID p.owner
      = (p.granted, s'.toTables)

/-- The ticket table once the caller has a ticket in it. -/
inductive Filed (s : Claims) (p : Poll) (s' : Claims) : List RLFairClaimTicket → Prop
  | before {t : RLFairClaimTicket} : t ∈ s.tickets → t.runID = p.runID → t.owner = p.owner →
      Filed s p s' s.tickets
  | now : Filed s p s'
      (s.tickets ++ [⟨s'.serial, p.tenantID, p.runID, p.owner, s'.clock⟩])

/-- The ticket at the head is the caller's. -/
def Poll.Owns (p : Poll) (head : RLFairClaimTicket) : Prop :=
  head.tenantID = p.tenantID ∧ head.runID = p.runID ∧ head.owner = p.owner

/-- What a call does with the ticket whose turn it is. -/
inductive Outcome (s : Claims) (p : Poll) (s' : Claims) (tickets : List RLFairClaimTicket)
    (head : RLFairClaimTicket) : Prop
  | grant : p.granted = some head → p.Owns head →
      s'.tickets = tickets.filter (fun t => t.id ≠ head.id) → s'.lastTenant = head.tenantID →
      Outcome s p s' tickets head
  | refuse : p.granted = none → ¬p.Owns head → s'.tickets = tickets →
      s'.lastTenant = s.lastTenant → Outcome s p s' tickets head

theorem filed_createTicket (s : Claims) (p : Poll) (s' : Claims) :
    Filed s p s' (createTicket s.tickets ⟨s'.serial, p.tenantID, p.runID, p.owner, s'.clock⟩) := by
  unfold createTicket
  split
  · rename_i hany
    obtain ⟨t, hmem, hsame⟩ := List.any_eq_true.mp hany
    rw [Bool.and_eq_true] at hsame
    exact .before hmem (of_decide_eq_true hsame.1) (of_decide_eq_true hsame.2)
  · exact .now

variable {s s' : Claims} {p : Poll}

theorem Filed.ne_nil (h : Filed s p s' tickets) : tickets ≠ [] := by
  cases h with
  | before hmem _ _ => exact List.ne_nil_of_mem hmem
  | now => exact List.append_ne_nil_of_right_ne_nil _ (List.cons_ne_nil _ _)

theorem Filed.subset (h : Filed s p s' tickets) {t : RLFairClaimTicket} (ht : t ∈ s.tickets) :
    t ∈ tickets := by
  cases h with
  | before _ _ _ => exact ht
  | now => exact List.mem_append_left _ ht

theorem polls_cases (h : Polls s p s') :
    ∃ tickets head, Filed s p s' tickets ∧ IsTurn tickets s.lastTenant head ∧
      Outcome s p s' tickets head := by
  obtain ⟨-, -, hcall⟩ := h
  have hfiled := filed_createTicket s p s'
  obtain ⟨hturn, htenant⟩ := isTurn_head hfiled.ne_nil s.lastTenant
  refine ⟨_, _, hfiled, hturn, ?_⟩
  unfold acquireFairClaimTurn at hcall
  dsimp only at hcall
  split at hcall
  · rename_i hother
    obtain ⟨hgranted, htables⟩ := Prod.mk.inj hcall
    refine .refuse hgranted.symm ?_ (congrArg Tables.tickets htables).symm
      (congrArg Tables.lastTenant htables).symm
    rintro ⟨hsame, hrun, howner⟩
    rcases hother with hother | hother | hother
    · exact hother (htenant.symm.trans hsame)
    · exact hother hrun
    · exact hother howner
  · rename_i hown
    obtain ⟨hgranted, htables⟩ := Prod.mk.inj hcall
    rw [not_or, not_or, not_not, not_not, not_not] at hown
    have hsame := htenant.trans hown.1
    refine .grant hgranted.symm ⟨hsame, hown.2⟩ (congrArg Tables.tickets htables).symm ?_
    exact (congrArg Tables.lastTenant htables).symm.trans hsame.symm

/-! ## Well-formed tables -/

/-- What every table of tickets filed under a growing clock and growing numbers satisfies.
`tenantOf` is the tenant a run belongs to. -/
structure WellFormed (tenantOf : String → String) (tickets : List RLFairClaimTicket)
    (clock : Int) (serial : Nat) : Prop where
  numbered : Numbered tickets
  number : ∀ t ∈ tickets, t.id ≤ serial
  created : ∀ t ∈ tickets, t.createdAt ≤ clock
  ordered : ∀ a ∈ tickets, ∀ b ∈ tickets, a.id < b.id → a.createdAt ≤ b.createdAt
  tenant : ∀ t ∈ tickets, t.tenantID = tenantOf t.runID

/-- The calls made on behalf of the tenant a run belongs to. -/
def Entitled (tenantOf : String → String) : Claims → Poll → Claims → Prop :=
  Guarded Polls fun _ p => p.tenantID = tenantOf p.runID

section WellFormed

variable {tenantOf : String → String} {s s' : Claims} {p : Poll}
  {tickets : List RLFairClaimTicket}

theorem WellFormed.subset {smaller : List RLFairClaimTicket} {clock : Int} {serial : Nat}
    (h : WellFormed tenantOf tickets clock serial) (hsub : ∀ t ∈ smaller, t ∈ tickets) :
    WellFormed tenantOf smaller clock serial where
  numbered := fun a ha b hb => h.numbered a (hsub a ha) b (hsub b hb)
  number := fun t ht => h.number t (hsub t ht)
  created := fun t ht => h.created t (hsub t ht)
  ordered := fun a ha b hb => h.ordered a (hsub a ha) b (hsub b hb)
  tenant := fun t ht => h.tenant t (hsub t ht)

theorem WellFormed.later {clock clock' : Int} {serial serial' : Nat}
    (h : WellFormed tenantOf tickets clock serial) (hclock : clock ≤ clock')
    (hserial : serial ≤ serial') : WellFormed tenantOf tickets clock' serial' :=
  { h with
    number := fun t ht => le_trans (h.number t ht) hserial
    created := fun t ht => le_trans (h.created t ht) hclock }

/-- The new ticket has the largest number and the latest time. -/
theorem WellFormed.append {clock : Int} {serial : Nat} {new : RLFairClaimTicket}
    (h : WellFormed tenantOf tickets clock serial) (hid : serial < new.id)
    (hclock : clock ≤ new.createdAt) (htenant : new.tenantID = tenantOf new.runID) :
    WellFormed tenantOf (tickets ++ [new]) new.createdAt new.id := by
  have hmem : ∀ t ∈ tickets ++ [new], t ∈ tickets ∨ t = new := fun t ht => by
    simpa using ht
  refine ⟨fun a ha b hb heq => ?_, fun t ht => ?_, fun t ht => ?_, fun a ha b hb hlt => ?_,
    fun t ht => ?_⟩
  · rcases hmem a ha with hold | rfl <;> rcases hmem b hb with hold' | rfl
    · exact h.numbered a hold b hold' heq
    · have := h.number a hold
      omega
    · have := h.number b hold'
      omega
    · rfl
  · rcases hmem t ht with ht | rfl
    · exact le_of_lt (lt_of_le_of_lt (h.number t ht) hid)
    · exact le_refl _
  · rcases hmem t ht with ht | rfl
    · exact le_trans (h.created t ht) hclock
    · exact le_refl _
  · rcases hmem a ha with hold | rfl <;> rcases hmem b hb with hold' | rfl
    · exact h.ordered a hold b hold' hlt
    · exact le_trans (h.created a hold) hclock
    · have := h.number b hold'
      omega
    · omega
  · rcases hmem t ht with ht | rfl
    · exact h.tenant t ht
    · exact htenant

theorem WellFormed.filed (h : WellFormed tenantOf s.tickets s.clock s.serial)
    (hstep : Entitled tenantOf s p s') (hfiled : Filed s p s' tickets) :
    WellFormed tenantOf tickets s'.clock s'.serial := by
  obtain ⟨⟨hclock, hserial, -⟩, htenant⟩ := hstep
  cases hfiled with
  | before _ _ _ => exact h.later hclock (le_of_lt hserial)
  | now => exact h.append hserial hclock htenant

theorem Outcome.subset {head t : RLFairClaimTicket} (h : Outcome s p s' tickets head)
    (ht : t ∈ s'.tickets) : t ∈ tickets := by
  cases h with
  | grant _ _ htickets _ =>
    rw [htickets] at ht
    exact (List.mem_filter.mp ht).1
  | refuse _ _ htickets _ => exact htickets ▸ ht

theorem WellFormed.step (h : WellFormed tenantOf s.tickets s.clock s.serial)
    (hstep : Entitled tenantOf s p s') : WellFormed tenantOf s'.tickets s'.clock s'.serial := by
  obtain ⟨tickets, head, hfiled, -, houtcome⟩ := polls_cases hstep.1
  exact (h.filed hstep hfiled).subset fun t ht => houtcome.subset ht

theorem wellFormed_of_run {ps : List Poll} (hrun : Run (Entitled tenantOf) s ps s')
    (h : WellFormed tenantOf s.tickets s.clock s.serial) :
    WellFormed tenantOf s'.tickets s'.clock s'.serial :=
  hrun.invariant (I := fun s => WellFormed tenantOf s.tickets s.clock s.serial) h
    fun _ _ _ hwf hstep => hwf.step hstep

end WellFormed

/-! ## Rotation over the tenants -/

/-- The tenant holds a ticket. -/
def Holds (tenant : String) (s : Claims) : Prop := ∃ t ∈ s.tickets, t.tenantID = tenant

theorem arc_step {t u : String} (hstep : Polls s p s') (hholds : Holds u s)
    (harc : Arc t u s.lastTenant) (hnot : ¬p.GrantedTo u) :
    Arc t u s'.lastTenant ∧ ¬p.GrantedTo t := by
  obtain ⟨tickets, head, hfiled, hturn, houtcome⟩ := polls_cases hstep
  cases houtcome with
  | refuse hgranted _ _ hlast =>
    rw [hlast]
    refine ⟨harc, ?_⟩
    rintro ⟨t', hsome, -⟩
    cases hgranted.symm.trans hsome
  | grant hgranted _ _ hlast =>
    obtain ⟨ticket, hmem, htenant⟩ := hholds
    have hpresent : ∃ t ∈ tickets, t.tenantID = u := ⟨ticket, hfiled.subset hmem, htenant⟩
    rw [hlast]
    rcases harc.next hpresent hturn.next with heq | ⟨harc', hne⟩
    · exact absurd ⟨head, hgranted, heq⟩ hnot
    · refine ⟨harc', ?_⟩
      rintro ⟨t', hsome, htenant'⟩
      cases hgranted.symm.trans hsome
      exact hne htenant'

theorem lastTenant_of_grantedTo {t : String} (hstep : Polls s p s') (hgranted : p.GrantedTo t) :
    s'.lastTenant = t := by
  obtain ⟨ticket, hsome, htenant⟩ := hgranted
  obtain ⟨tickets, head, -, -, houtcome⟩ := polls_cases hstep
  cases houtcome with
  | refuse hnone _ _ _ => cases hnone.symm.trans hsome
  | grant hhead _ _ hlast =>
    cases hhead.symm.trans hsome
    exact hlast.trans htenant

variable {ps : List Poll}

theorem arc_of_run {t u : String} (hrun : Run (Throughout Polls (Holds u)) s ps s')
    (hholds : Holds u s) (harc : Arc t u s.lastTenant) (hnot : ∀ p ∈ ps, ¬p.GrantedTo u) :
    Holds u s' ∧ Arc t u s'.lastTenant := by
  induction hrun with
  | nil => exact ⟨hholds, harc⟩
  | snoc _ hlast ih =>
    obtain ⟨hbefore, harc'⟩ := ih fun p hp => hnot p (List.mem_append_left _ hp)
    have hmem := hnot _ (List.mem_append_right _ List.mem_cons_self)
    exact ⟨hlast.2, (arc_step hlast.1 hbefore harc' hmem).1⟩

/-- Between two grants to one tenant, every other tenant that held a ticket all the time was
granted. -/
def Rotates (step : Claims → Poll → Claims → Prop) (s : Claims) : Prop :=
  ∀ t u, t ≠ u → ∀ first mid last s1 s2 s3, step s first s1 → first.GrantedTo t →
    Holds u s1 → Run (Throughout step (Holds u)) s1 mid s2 →
    step s2 last s3 → last.GrantedTo t → ∃ p ∈ mid, p.GrantedTo u

theorem rotates (s : Claims) : Rotates Polls s := by
  intro t u hne first mid last s1 s2 s3 hfirst hgranted hholds hmid hlast hagain
  by_contra hnone
  have hnot : ∀ p ∈ mid, ¬p.GrantedTo u := fun p hp hu => hnone ⟨p, hp, hu⟩
  have hstart : Arc t u s1.lastTenant := by
    rw [lastTenant_of_grantedTo hfirst hgranted]
    exact arc_start hne
  obtain ⟨hheld, harc⟩ := arc_of_run hmid hholds hstart hnot
  -- the second grant goes to `t`, so it does not go to `u`
  have hother : ¬last.GrantedTo u := by
    intro hu
    have hlast1 := lastTenant_of_grantedTo hlast hagain
    exact hne (hlast1.symm.trans (lastTenant_of_grantedTo hlast hu))
  exact (arc_step hlast hheld harc hother).2 hagain

/-! ## Order within a tenant -/

/-- All tickets of the same tenant, now and later, were filed after this one. -/
structure Behind (first : RLFairClaimTicket) (s : Claims) : Prop where
  number : first.id ≤ s.serial
  created : first.createdAt ≤ s.clock
  later : ∀ t ∈ s.tickets, t.tenantID = first.tenantID →
    first.id < t.id ∧ first.createdAt ≤ t.createdAt

theorem Behind.step {first : RLFairClaimTicket} (h : Behind first s) (hstep : Polls s p s') :
    Behind first s' ∧ ∀ t, p.granted = some t → t.tenantID = first.tenantID →
      first.id < t.id ∧ first.createdAt ≤ t.createdAt := by
  obtain ⟨tickets, head, hfiled, hturn, houtcome⟩ := polls_cases hstep
  have hnumber := lt_of_le_of_lt h.number hstep.2.1
  have hcreated := le_trans h.created hstep.1
  have htickets : ∀ t ∈ tickets, t.tenantID = first.tenantID →
      first.id < t.id ∧ first.createdAt ≤ t.createdAt := by
    cases hfiled with
    | before _ _ _ => exact h.later
    | now =>
      intro t ht htenant
      rcases List.mem_append.mp ht with hold | hnew
      · exact h.later t hold htenant
      · rw [List.mem_singleton.mp hnew]
        exact ⟨hnumber, hcreated⟩
  refine ⟨⟨le_of_lt hnumber, hcreated, fun t ht => htickets t (houtcome.subset ht)⟩, ?_⟩
  intro t hsome htenant
  cases houtcome with
  | refuse hnone _ _ _ => cases hnone.symm.trans hsome
  | grant hgranted _ _ _ =>
    cases hgranted.symm.trans hsome
    exact htickets _ hturn.mem htenant

theorem behind_of_granted {first : RLFairClaimTicket}
    (hwf : WellFormed tenantOf s.tickets s.clock s.serial) (hstep : Entitled tenantOf s p s')
    (hgranted : p.granted = some first) :
    Behind first s' := by
  obtain ⟨tickets, head, hfiled, hturn, houtcome⟩ := polls_cases hstep.1
  have hfiledWf := hwf.filed hstep hfiled
  cases houtcome with
  | refuse hnone _ _ _ => cases hnone.symm.trans hgranted
  | grant hhead _ htickets _ =>
    cases hhead.symm.trans hgranted
    refine ⟨hfiledWf.number _ hturn.mem, hfiledWf.created _ hturn.mem, ?_⟩
    intro other hother hsame
    rw [htickets] at hother
    obtain ⟨hmem, hne⟩ := List.mem_filter.mp hother
    have hid := of_decide_eq_true hne
    have hfirst := hturn.oldest other hmem hsame
    -- a smaller number would mean an earlier time
    have hearlier := hfiledWf.ordered other hmem _ hturn.mem
    unfold Database.Precedes RLFairClaimTicket.rank at hfirst
    dsimp only at hfirst
    omega

/-- Of two grants to one tenant, the first is for the ticket that was filed first. -/
def ServesInOrder (step : Claims → Poll → Claims → Prop) (s : Claims) : Prop :=
  ∀ first mid last s1 s2 s3 t1 t2, step s first s1 → first.granted = some t1 →
    Run step s1 mid s2 → step s2 last s3 → last.granted = some t2 →
    t1.tenantID = t2.tenantID → t1.id < t2.id ∧ t1.createdAt ≤ t2.createdAt

theorem servesInOrder (hwf : WellFormed tenantOf s.tickets s.clock s.serial) :
    ServesInOrder (Entitled tenantOf) s := by
  intro first mid last s1 s2 s3 t1 t2 hfirst hgranted hmid hlast hlater hsame
  have hbehind : Behind t1 s2 :=
    hmid.invariant (I := Behind t1) (behind_of_granted hwf hfirst hgranted)
      fun _ _ _ h hstep => (h.step hstep.1).1
  exact (hbehind.step hlast.1).2 t2 hlater hsame.symm

/-! ## Progress -/

theorem granted_of_empty (hempty : s.tickets = []) (hstep : Polls s p s') :
    (∃ t, p.granted = some t) ∧ s'.tickets = [] := by
  obtain ⟨tickets, head, hfiled, hturn, houtcome⟩ := polls_cases hstep
  cases hfiled with
  | before hmem _ _ =>
    rw [hempty] at hmem
    cases hmem
  | now =>
    have hmem := hturn.mem
    rw [hempty, List.nil_append, List.mem_singleton] at hmem
    cases houtcome with
    | refuse _ hnot _ _ =>
      rw [hmem] at hnot
      exact absurd ⟨rfl, rfl, rfl⟩ hnot
    | grant hgranted _ htickets _ =>
      refine ⟨⟨head, hgranted⟩, ?_⟩
      rw [htickets, hempty, hmem]
      simp

theorem empty_of_run (hrun : Run Polls s ps s') (hempty : s.tickets = []) : s'.tickets = [] :=
  hrun.invariant (I := fun s => s.tickets = []) hempty
    fun _ _ _ h hstep => (granted_of_empty h hstep).2

theorem turn_of_refused {head : RLFairClaimTicket}
    (hwf : WellFormed tenantOf s.tickets s.clock s.serial) (hstep : Entitled tenantOf s p s')
    (hturn : IsTurn s.tickets s.lastTenant head) (hrefused : p.granted = none) :
    IsTurn s'.tickets s'.lastTenant head ∧ ¬(p.runID = head.runID ∧ p.owner = head.owner) := by
  obtain ⟨tickets, head', hfiled, hturn', houtcome⟩ := polls_cases hstep.1
  cases houtcome with
  | grant hgranted _ _ _ => cases hgranted.symm.trans hrefused
  | refuse _ hnot htickets hlast =>
    have hsame : head' = head := by
      cases hfiled with
      | before _ _ _ => exact hturn'.unique hwf.numbered hturn
      | now =>
        rcases hturn.of_append hwf.numbered hturn' with heq | hnew
        · exact heq
        · rw [hnew] at hnot
          exact absurd ⟨rfl, rfl, rfl⟩ hnot
    rw [hsame] at hnot hturn'
    rw [htickets, hlast]
    refine ⟨hturn', fun hown => hnot ⟨?_, hown.1.symm, hown.2.symm⟩⟩
    -- the run of the ticket is the caller's, and so is its tenant
    rw [hwf.tenant head hturn.mem, ← hown.1]
    exact hstep.2.symm

theorem turn_of_run {head : RLFairClaimTicket} (hrun : Run (Entitled tenantOf) s ps s')
    (hwf : WellFormed tenantOf s.tickets s.clock s.serial)
    (hturn : IsTurn s.tickets s.lastTenant head) (hrefused : ∀ p ∈ ps, p.granted = none) :
    IsTurn s'.tickets s'.lastTenant head ∧
      ∀ p ∈ ps, ¬(p.runID = head.runID ∧ p.owner = head.owner) := by
  induction hrun with
  | nil => exact ⟨hturn, fun _ hp => by cases hp⟩
  | snoc hprev hlast ih =>
    obtain ⟨hbefore, hothers⟩ := ih fun p hp => hrefused p (List.mem_append_left _ hp)
    have hnone := hrefused _ (List.mem_append_right _ List.mem_cons_self)
    obtain ⟨hafter, hother⟩ :=
      turn_of_refused (wellFormed_of_run hprev hwf) hlast hbefore hnone
    refine ⟨hafter, fun p hp => ?_⟩
    rcases List.mem_append.mp hp with hmem | hmem
    · exact hothers p hmem
    · rw [List.mem_singleton.mp hmem]
      exact hother

/-- Some call of a stretch is granted if everybody who holds a ticket at its start polls. -/
def Advances (step : Claims → Poll → Claims → Prop) (s : Claims) : Prop :=
  ∀ ps s', ps ≠ [] → Run step s ps s' →
    (∀ t ∈ s.tickets, ∃ p ∈ ps, p.runID = t.runID ∧ p.owner = t.owner) →
    ∃ p ∈ ps, ∃ t, p.granted = some t

theorem granted_of_run_of_empty (hrun : Run Polls s ps s') (hempty : s.tickets = [])
    (hne : ps ≠ []) : ∃ p ∈ ps, ∃ t, p.granted = some t := by
  cases hrun with
  | nil => exact absurd rfl hne
  | snoc hprev hlast =>
    refine ⟨_, List.mem_append_right _ List.mem_cons_self, ?_⟩
    exact (granted_of_empty (empty_of_run hprev hempty) hlast).1

theorem advances (hwf : WellFormed tenantOf s.tickets s.clock s.serial) :
    Advances (Entitled tenantOf) s := by
  intro ps s' hne hrun hpolls
  by_cases hempty : s.tickets = []
  · exact granted_of_run_of_empty hrun.of_guarded hempty hne
  · by_contra hnone
    have hrefused : ∀ p ∈ ps, p.granted = none := by
      intro p hp
      cases hgranted : p.granted with
      | none => rfl
      | some t => exact absurd ⟨p, hp, t, hgranted⟩ hnone
    -- the turn stays with one ticket, and its owner polls
    have hturn := (isTurn_head hempty s.lastTenant).1
    obtain ⟨p, hp, hown⟩ := hpolls _ hturn.mem
    exact (turn_of_run hrun hwf hturn hrefused).2 p hp hown

/-! ## Fairness -/

/-- The empty table, from which the service starts, is well formed. -/
theorem wellFormed_empty (tenantOf : String → String) (clock : Int) :
    WellFormed tenantOf (Claims.empty clock).tickets clock 0 := by
  constructor <;> simp [Claims.empty, Numbered]

/-- Claim turns are fair, from every state that calls reach from a well-formed table, the empty
one among them (`wellFormed_empty`). -/
theorem fair_claim_turns (tenantOf : String → String) (s0 s : Claims) (ps : List Poll)
    (hwf : WellFormed tenantOf s0.tickets s0.clock s0.serial)
    (hrun : Run (Entitled tenantOf) s0 ps s) :
    Rotates (Entitled tenantOf) s ∧ ServesInOrder (Entitled tenantOf) s ∧
      Advances (Entitled tenantOf) s := by
  have hwf' := wellFormed_of_run hrun hwf
  refine ⟨?_, servesInOrder hwf', advances hwf'⟩
  intro t u hne first mid last s1 s2 s3 hfirst hgranted hholds hmid hlast
  have hmid' : Run (Throughout Polls (Holds u)) s1 mid s2 := hmid.mono fun _ _ _ h => ⟨h.1.1, h.2⟩
  exact rotates s t u hne first mid last s1 s2 s3 hfirst.1 hgranted hholds hmid' hlast.1

def call (s : Claims) (c : String × String × String) : Option (Poll × Claims) :=
  let result := acquireFairClaimTurn s.toTables (s.serial + 1) s.clock c.1 c.2.1 c.2.2
  some (⟨c.1, c.2.1, c.2.2, result.1⟩, ⟨result.2, s.clock, s.serial + 1⟩)

theorem polls_call (s : Claims) (c : String × String × String) (p : Poll) (s' : Claims)
    (h : call s c = some (p, s')) : Polls s p s' := by
  cases h
  exact ⟨le_refl _, Nat.lt_succ_self _, rfl⟩

def rotationStart : Claims :=
  ⟨⟨[⟨1, "a", "run-a", "trainer-a", 0⟩, ⟨2, "b", "run-b", "trainer-b", 0⟩], "a"⟩, 0, 2⟩

def rotationTenant (runID : String) : String := if runID = "run-a" then "a" else "b"

def rotation : List Poll × Claims :=
  play call rotationStart
    [("a", "run-a", "trainer-a"), ("b", "run-b", "trainer-b"), ("a", "run-a", "trainer-a")]

theorem wellFormed_rotationStart :
    WellFormed rotationTenant rotationStart.tickets rotationStart.clock rotationStart.serial :=
  ⟨by unfold Numbered; decide, by decide, by decide, by decide, by decide⟩

theorem entitled_rotation : Run (Entitled rotationTenant) rotationStart rotation.1 rotation.2 := by
  have hrun : Run Polls rotationStart rotation.1 rotation.2 := run_play polls_call _ _
  have hlabels : ∀ p ∈ rotation.1, p.tenantID = rotationTenant p.runID := by decide +kernel
  exact hrun.guarded_of_labels hlabels

theorem fair_claim_turns_rotation :
    rotation.1.map (fun p => p.granted.isSome) = [false, true, true] ∧
      Rotates (Entitled rotationTenant) rotation.2 ∧
      ServesInOrder (Entitled rotationTenant) rotation.2 ∧
      Advances (Entitled rotationTenant) rotation.2 :=
  ⟨by decide +kernel, fair_claim_turns rotationTenant rotationStart rotation.2 rotation.1
    wellFormed_rotationStart entitled_rotation⟩

/-! ## Absent owners -/

/-- The tickets in the table once (run, owner) has one. -/
def waiting (s : Claims) (runID owner : String) : Nat :=
  if s.tickets.any fun t => t.runID = runID && t.owner = owner then s.tickets.length
  else s.tickets.length + 1

/-- Tickets that calls have filed never keep a caller from its turn: if only one caller goes
on, it is granted within as many calls as there are tickets, its own among them. -/
theorem lone_caller_granted (clock : Int) (s s' : Claims) (before ps : List Poll)
    (tenantID runID owner : String) (hbefore : Run Polls (Claims.empty clock) before s)
    (hrun : Run Polls s ps s')
    (hcaller : ∀ p ∈ ps, p.tenantID = tenantID ∧ p.runID = runID ∧ p.owner = owner)
    (hcalls : waiting s runID owner ≤ ps.length) :
    ∃ p ∈ ps, ∃ t, p.granted = some t ∧ t.tenantID = tenantID ∧ t.runID = runID ∧
      t.owner = owner := by
  have hempty : s.tickets = [] := empty_of_run hbefore rfl
  have hne : ps ≠ [] := by
    rintro rfl
    simp [waiting, hempty] at hcalls
  obtain ⟨p, hp, t, hgranted⟩ := granted_of_run_of_empty hrun hempty hne
  refine ⟨p, hp, t, hgranted, ?_⟩
  obtain ⟨a, b, hstep⟩ := hrun.step_of_mem hp
  obtain ⟨tickets, head, -, -, houtcome⟩ := polls_cases hstep
  obtain ⟨htenant, hrunID, howner⟩ := hcaller p hp
  cases houtcome with
  | refuse hnone _ _ _ => cases hnone.symm.trans hgranted
  | grant hhead hown _ _ =>
    cases hhead.symm.trans hgranted
    exact ⟨hown.1.trans htenant, hown.2.1.trans hrunID, hown.2.2.trans howner⟩

def departure : List Poll × Claims :=
  play call (Claims.empty 0) [("a", "run-a", "trainer-a")]

def newcomer : List Poll × Claims := play call departure.2 [("b", "run-b", "trainer-b")]

theorem lone_caller_granted_newcomer :
    ∃ p ∈ newcomer.1, ∃ t, p.granted = some t ∧ t.tenantID = "b" ∧ t.runID = "run-b" ∧
      t.owner = "trainer-b" :=
  lone_caller_granted 0 departure.2 newcomer.2 departure.1 newcomer.1 "b" "run-b" "trainer-b"
    (run_play polls_call _ _) (run_play polls_call _ _) (by decide +kernel) (by decide +kernel)

end FairClaims
end State
end Skyscale
