import RequestRouting.Proofs.Addresses
import RequestRouting.Proofs.Conduct

/-!
# Routes are used once

A filter that fails after it has run the rest of its chain is passed over: the context
that went into it continues, with the failure recorded, and the rest of the chain is run
again. No route is called in that second run as long as the failure stands, so a route is
called at most once in a dispatch unless a failure is put away between such a filter and
the route. A group with a handler that clears exceptions can do that.
-/

namespace RequestRouting

open Address

variable {E W : Type}

namespace Notice

/-- Whether a notice says that the callback at an address is called. -/
def isCallOf (route : Address) : Notice E → Bool
  | called address _ => address == route
  | dispatching _ | entered _ | left _ | returned _ _ | failed _ _ _ => false

/-- Whether a notice says that the callback at an address has come back with a context. -/
def isReturnOf (route : Address) : Notice E → Bool
  | returned address _ => address == route
  | dispatching _ | entered _ | left _ | called _ _ | failed _ _ _ => false

/-- A kind of notices about one handler, of which a call gives at most one. -/
structure OncePerCall (route : Address) (counts : Notice E → Bool) : Prop where
  about : ∀ notice, counts notice → notice.address? = some route
  entered : ∀ address, counts (.entered address) = false
  left : ∀ address, counts (.left address) = false
  call : ∀ address ctx outcome,
    [Notice.called address ctx, .ended address ctx outcome].countP counts ≤ 1

theorem oncePerCall_isCallOf (route : Address) :
    OncePerCall (E := E) route (isCallOf route) where
  about notice hcounts := by
    cases notice <;> simp_all [isCallOf, address?]
  entered address := rfl
  left address := rfl
  call address ctx outcome := by
    cases outcome <;> by_cases heq : address = route <;> simp [isCallOf, ended, heq]

theorem oncePerCall_isReturnOf (route : Address) :
    OncePerCall (E := E) route (isReturnOf route) where
  about notice hcounts := by
    cases notice <;> simp_all [isReturnOf, address?]
  entered address := rfl
  left address := rfl
  call address ctx outcome := by
    cases outcome <;> by_cases heq : address = route <;> simp [isReturnOf, ended, heq]

end Notice

theorem SilentAbout.countP_eq_zero {route : Address} {counts : Notice E → Bool}
    {seen : List (Notice E)} (hsilent : SilentAbout route seen)
    (honce : Notice.OncePerCall route counts) : seen.countP counts = 0 := by
  rw [List.countP_eq_zero]
  intro notice hnotice hcounts
  exact hsilent notice hnotice (honce.about notice hcounts)

/-! ## Calls -/

namespace Callback.Calls

variable {rest : Course E} {address route : Address} {callback : Callback E W}
  {ctx : Context E} {outcome : Except Failure (Context E)} {seen : List (Notice E)}

/-- A call of a callback that does not run the rest of the chain. -/
theorem seen_of_never (hcall : callback.Calls rest address ctx outcome seen)
    (hnever : (callback ctx).ProceedsAtMost 0) :
    seen = [.called address ctx, .ended address ctx outcome] := by
  obtain ⟨hruns⟩ := hcall
  rw [hruns.seen_eq_nil hnever]
  rfl

theorem silentAbout_of_never (hcall : callback.Calls rest address ctx outcome seen)
    (hnever : (callback ctx).ProceedsAtMost 0) (hne : address ≠ route) :
    SilentAbout route seen := by
  rw [hcall.seen_of_never hnever]
  exact silentAbout_nil.bracket hne rfl (Notice.address?_ended _ _ _)

/-- What a call with a failed context leads to, where the rest of the chain is silent about
a route when it starts from a failed context. -/
theorem carries {back : Context E → Prop} (hcall : callback.Calls rest address ctx outcome seen)
    (hrest : ∀ ctx result seen, ctx.exception.isSome → rest ctx result seen →
      back result ∧ SilentAbout route seen)
    (hcarries : (callback ctx).Carries back) (hne : address ≠ route) :
    (∀ result, outcome = .ok result → back result) ∧ SilentAbout route seen := by
  obtain ⟨hruns⟩ := hcall
  obtain ⟨hresult, hsilent⟩ := hruns.carries hrest hcarries
  exact ⟨hresult, .bracket hne hsilent rfl (Notice.address?_ended _ _ _)⟩

/-- A call of a callback that runs the rest of the chain at most once counts no more than
such a run does, where the handler itself does not count. -/
theorem countP_le_one {counts : Notice E → Bool} (honce : Notice.OncePerCall route counts)
    (hcall : callback.Calls rest address ctx outcome seen)
    (hproceeds : (callback ctx).ProceedsAtMost 1)
    (hrest : ∀ ctx result seen, rest ctx result seen → seen.countP counts ≤ 1)
    (hne : address ≠ route) : seen.countP counts ≤ 1 := by
  obtain ⟨hruns⟩ := hcall
  have hown (notice : Notice E) (hnotice : notice.address? = some address) :
      counts notice = false := by
    rw [Bool.eq_false_iff]
    intro hcounts
    have hroute := honce.about notice hcounts
    rw [hnotice] at hroute
    exact hne (Option.some.inj hroute)
  have hcalled := hown (.called address ctx) rfl
  have hended := hown (.ended address ctx outcome) (Notice.address?_ended _ _ _)
  rcases hruns.seen_of_proceedsAtMost_one hproceeds with rfl | ⟨start, middle, hwalk⟩
  · simp [hcalled, hended]
  · simpa [hcalled, hended] using hrest start middle _ hwalk

end Callback.Calls

namespace Handler

/-- The listing of all handlers of a chain. -/
abbrev all (handlers : List (Handler E W)) (address : Address) (index : Nat) :
    List (Address × Handler E W) :=
  listing (fun _ => true) handlers address index

theorem Throughout.of_mem_all {condition : Handler E W → Prop} {handlers : List (Handler E W)}
    (hall : Throughout (fun h _ => condition h) handlers) {address route : Address}
    {index : Nat} {listed : Handler E W} (hmem : (route, listed) ∈ all handlers address index) :
    condition listed := by
  induction handlers using chainInduction generalizing address index with
  | nil => simp at hmem
  | cons h rest ihInside ihRest =>
      obtain ⟨hhere, hinside, hrest⟩ := throughout_cons.mp hall
      rcases mem_listing_cons.mp hmem with ⟨_, ⟨_, rfl⟩ | hmem⟩ | hmem
      · exact hhere
      · exact ihInside hinside hmem
      · exact ihRest hrest hmem

/-! ## What a handler does with a failed context and with its routes -/

/-- In a handler that passes failures on, nothing puts a failure away. -/
theorem PassesFailures.inside {h : Handler E W} (hpasses : h.PassesFailures) :
    Throughout (fun h _ => h.KeepsFailures) h.inside := by
  cases h with
  | group p handlers => exact hpasses
  | on | after | filter | recover => exact throughout_nil

namespace Does

variable {rest inner : Course E} {address route : Address} {h : Handler E W}
  {ctx result : Context E} {seen : List (Notice E)}

/-- A failed context comes out of a handler failed, if the handler is no route and the rest
of its chain and the chain inside it do not put failures away. -/
theorem keepsFailures (hdoes : h.Does rest inner address ctx result seen)
    (hterminal : h.isTerminal = false) (hkeeps : h.KeepsFailures)
    (hrest : ∀ ctx result seen, ctx.exception.isSome → rest ctx result seen →
      result.exception.isSome)
    (hinner : ∀ ctx result seen, ctx.exception.isSome → inner ctx result seen →
      result.exception.isSome)
    (hfailed : ctx.exception.isSome) : result.exception.isSome := by
  have hcourse (ctx result : Context E) (seen : List (Notice E)) (hfailed : ctx.exception.isSome)
      (hlater : rest ctx result seen) :
      result.exception.isSome ∧ ∀ notice ∈ seen, True :=
    ⟨hrest ctx result seen hfailed hlater, fun _ _ => trivial⟩
  cases hdoes with
  | on => simp [isTerminal] at hterminal
  | @after _ _ _ middle outcome _ _ hearlier hcall =>
      have hmiddle := hrest _ _ _ hfailed hearlier
      obtain ⟨hruns⟩ := hcall
      cases outcome with
      | ok result => exact (hruns.carries hcourse (hkeeps middle hmiddle)).1 result rfl
      | error failure => rfl
  | filter hcall =>
      obtain ⟨hruns⟩ := hcall
      exact (hruns.carries hcourse (hkeeps _ hfailed)).1 result rfl
  | failedFilter _ hlater => exact hrest _ _ _ rfl hlater
  | passed hearlier _ => exact hrest _ _ _ hfailed hearlier
  | @recovered _ _ _ _ _ middle outcome _ _ hearlier _ hcall =>
      have hmiddle := hrest _ _ _ hfailed hearlier
      obtain ⟨rfl, hcarries⟩ := hkeeps
      obtain ⟨hruns⟩ := hcall
      cases outcome with
      | ok result => exact (hruns.carries hcourse (hcarries middle hmiddle)).1 result rfl
      | error failure => rfl
  | @group _ _ _ middle _ _ _ hfirst hlater =>
      have hmiddle : middle.exception.isSome := by
        apply hinner _ _ _ _ hfirst
        exact hfailed
      apply hrest _ _ _ _ hlater
      exact hmiddle

/-- A handler with a failed context is silent about another handler, if the chain inside it
is silent about that handler, and the rest of its chain when it starts from a failed
context. -/
theorem silentAbout (hdoes : h.Does rest inner address ctx result seen)
    (hterminal : h.isTerminal = false) (hthrifty : h.Thrifty) (hne : address ≠ route)
    (hpasses : h.PassesFailures)
    (hinner : ∀ ctx result seen, ctx.exception.isSome → inner ctx result seen →
      result.exception.isSome ∧ SilentAbout route seen)
    (hrest : ∀ ctx result seen, ctx.exception.isSome → rest ctx result seen →
      SilentAbout route seen)
    (hfailed : ctx.exception.isSome) : SilentAbout route seen := by
  have hcourse (ctx result : Context E) (seen : List (Notice E)) (hfailed : ctx.exception.isSome)
      (hlater : rest ctx result seen) : True ∧ SilentAbout route seen :=
    ⟨trivial, hrest ctx result seen hfailed hlater⟩
  cases hdoes with
  | on => simp [isTerminal] at hterminal
  | after hearlier hcall =>
      apply (hrest _ _ _ hfailed hearlier).append
      exact hcall.silentAbout_of_never (hthrifty _) hne
  | filter hcall => exact (hcall.carries hcourse (hpasses _ hfailed) hne).2
  | failedFilter hcall hlater =>
      apply (hcall.carries hcourse (hpasses _ hfailed) hne).2.append
      exact hrest _ _ _ rfl hlater
  | passed hearlier _ => exact hrest _ _ _ hfailed hearlier
  | recovered hearlier _ hcall =>
      apply (hrest _ _ _ hfailed hearlier).append
      exact hcall.silentAbout_of_never (hthrifty _) hne
  | @group _ _ _ middle _ _ _ hfirst hlater =>
      obtain ⟨hmiddle, hsilent⟩ := hinner ctx.enter middle _ hfailed hfirst
      apply hsilent.append
      apply hrest _ _ _ _ hlater
      exact hmiddle

/-- A handler counts at most once what its rest counts at most once, if it does not run the
rest again after a failure or does so in silence. -/
theorem countP_le_one {counts : Notice E → Bool} (honce : Notice.OncePerCall route counts)
    (hdoes : h.Does rest inner address ctx result seen) (hthrifty : h.Thrifty)
    (hne : address ≠ route)
    (hagain : h.FailsEarly ∨ ∀ ctx result seen, ctx.exception.isSome → rest ctx result seen →
      SilentAbout route seen)
    (hinner : ∀ ctx result seen, inner ctx result seen → SilentAbout route seen)
    (hrest : ∀ ctx result seen, rest ctx result seen → seen.countP counts ≤ 1) :
    seen.countP counts ≤ 1 := by
  cases hdoes with
  | on hcall hlater =>
      have hsilent := hcall.silentAbout_of_never (hthrifty _) hne
      rw [List.countP_append, hsilent.countP_eq_zero honce, Nat.zero_add]
      exact hrest _ _ _ hlater
  | after hearlier hcall =>
      have hsilent := hcall.silentAbout_of_never (hthrifty _) hne
      rw [List.countP_append, hsilent.countP_eq_zero honce]
      exact hrest _ _ _ hearlier
  | filter hcall => exact hcall.countP_le_one honce (hthrifty _) hrest hne
  | @failedFilter _ _ _ _ failure first second hcall hlater =>
      rw [List.countP_append]
      rcases hagain with hearly | hsilent
      · -- The filter has not run the rest of the chain when it fails.
        have hfirst : SilentAbout route first := by
          obtain ⟨hruns⟩ := hcall
          rw [hruns.seen_eq_nil_of_failed (hearly _)]
          exact silentAbout_nil.bracket hne rfl rfl
        rw [hfirst.countP_eq_zero honce, Nat.zero_add]
        exact hrest _ _ _ hlater
      · -- The second run of the rest starts from a failed context.
        have hsecond := hsilent _ _ _ rfl hlater
        rw [hsecond.countP_eq_zero honce]
        exact hcall.countP_le_one honce (hthrifty _) hrest hne
  | passed hearlier _ => exact hrest _ _ _ hearlier
  | recovered hearlier _ hcall =>
      have hsilent := hcall.silentAbout_of_never (hthrifty _) hne
      rw [List.countP_append, hsilent.countP_eq_zero honce]
      exact hrest _ _ _ hearlier
  | group hfirst hlater =>
      rw [List.countP_append, (hinner _ _ _ hfirst).countP_eq_zero honce, Nat.zero_add]
      exact hrest _ _ _ hlater

end Does

variable [Routable E] {handlers : List (Handler E W)} {address route : Address} {index : Nat}
  {ctx result : Context E} {seen : List (Notice E)} {listed : Handler E W}

/-! ## Walks from a failed context -/

/-- A failed context goes into no handler that answers requests. -/
theorem not_terminal_of_goesInto {h : Handler E W} (hfailed : ctx.exception.isSome)
    (hgoes : ctx.goesInto index h = true) : h.isTerminal = false := by
  have hsome : ctx.exception.isNone = false := by
    rw [← Option.not_isSome, hfailed, Bool.not_true]
  simp only [Context.goesInto, Bool.and_eq_true, hsome, Bool.false_or, runsOnFailure] at hgoes
  simpa using hgoes.1.2

/-- Where nothing puts a failure away, a failed context is still failed in the end. -/
theorem Walks.keepsFailures (hkeeps : Throughout (fun h _ => h.KeepsFailures) handlers)
    (hfailed : ctx.exception.isSome) (hwalk : Walks handlers address index ctx result seen) :
    result.exception.isSome := by
  induction handlers using chainInduction generalizing address index ctx result seen with
  | nil =>
      obtain ⟨rfl, _⟩ := walks_nil hwalk
      split <;> exact hfailed
  | cons h rest ihInside ihRest =>
      obtain ⟨hhere, hinside, hrest⟩ := throughout_cons.mp hkeeps
      rcases walks_cons hwalk with ⟨_, rfl, _⟩ | ⟨_, _, hlater⟩ | ⟨_, hgoes, between, hdoes, _⟩
      · exact hfailed
      · exact ihRest hrest hfailed hlater
      · apply hdoes.keepsFailures (not_terminal_of_goesInto hfailed hgoes) hhere
        · exact fun _ _ _ => ihRest hrest
        · exact fun _ _ _ => ihInside hinside
        · exact hfailed

/-- Where failures stand, a walk from a failed context is silent about all routes. -/
theorem Walks.silentAbout (hthrifty : Throughout (fun h _ => h.Thrifty) handlers)
    (hstand : FailuresStand handlers) (hfailed : ctx.exception.isSome)
    (hmem : (route, listed) ∈ all handlers address index) (hroute : listed.isTerminal)
    (hwalk : Walks handlers address index ctx result seen) : SilentAbout route seen := by
  induction handlers using chainInduction generalizing address index ctx result seen with
  | nil => simp at hmem
  | cons h rest ihInside ihRest =>
      obtain ⟨hthriftyHere, hthriftyInside, hthriftyRest⟩ := throughout_cons.mp hthrifty
      obtain ⟨hstandHere, hstandInside, hstandRest⟩ := throughout_cons.mp hstand
      rcases walks_cons hwalk with ⟨_, _, rfl⟩ | ⟨_, _, hlater⟩ | ⟨_, hgoes, between, hdoes, rfl⟩
      · exact silentAbout_nil
      · rcases mem_listing_cons.mp hmem with ⟨_, ⟨rfl, _⟩ | hmem⟩ | hmem
        · exact hlater.silentAbout_of_not_within not_within_later_self
        · exact hlater.silentAbout_of_not_within (within_of_mem_listing hmem).not_later
        · exact ihRest hthriftyRest hstandRest hfailed hmem hlater
      · have hterminal := not_terminal_of_goesInto hfailed hgoes
        rcases mem_listing_cons.mp hmem with ⟨_, ⟨_, rfl⟩ | hmem⟩ | hmem
        · rw [hroute] at hterminal
          cases hterminal
        · -- Only a group has a route inside; what is behind it is disjoint from that.
          have hwithin := within_of_mem_listing hmem
          apply SilentAbout.bracket hwithin.ne_self_of_inside _ rfl rfl
          cases hdoes with
          | group hinner hlater =>
              apply SilentAbout.append _ (hlater.silentAbout_of_not_within hwithin.not_later)
              apply ihInside hthriftyInside hstandInside _ hmem hinner
              exact hfailed
          | on | after | filter | failedFilter | passed | recovered =>
              simp [inside] at hmem
        · have hwithin := within_of_mem_listing hmem
          have hpasses : h.PassesFailures := by
            rcases hstandHere with hpasses | hroutes
            · exact hpasses
            · have hnone := hroutes.of_mem_all hmem
              rw [hroute] at hnone
              cases hnone
          apply SilentAbout.bracket hwithin.ne_self _ rfl rfl
          apply hdoes.silentAbout hterminal hthriftyHere hwithin.ne_self hpasses
          · intro ctx result seen hfailed hinner
            exact ⟨Walks.keepsFailures hpasses.inside hfailed hinner,
              hinner.silentAbout_of_not_within hwithin.not_inside⟩
          · exact fun _ _ _ hfailed => ihRest hthriftyRest hstandRest hfailed hmem
          · exact hfailed

/-! ## Counting -/

/-- Where every filter proceeds safely, a walk calls a route at most once. -/
theorem Walks.countP_le_one {counts : Notice E → Bool}
    (honce : Notice.OncePerCall route counts) (hsafe : Throughout ProceedsSafely handlers)
    (hmem : (route, listed) ∈ all handlers address index) (hroute : listed.isTerminal)
    (hwalk : Walks handlers address index ctx result seen) : seen.countP counts ≤ 1 := by
  induction handlers using chainInduction generalizing address index ctx result seen with
  | nil => simp at hmem
  | cons h rest ihInside ihRest =>
      have hthrifty := throughout_cons.mp (hsafe.mono fun h _ hsafe => hsafe.1)
      obtain ⟨hhere, hinside, hrest⟩ := throughout_cons.mp hsafe
      rcases walks_cons hwalk with ⟨_, _, rfl⟩ | ⟨_, _, hlater⟩ | ⟨_, hgoes, between, hdoes, rfl⟩
      · simp
      · rcases mem_listing_cons.mp hmem with ⟨_, ⟨rfl, _⟩ | hmem⟩ | hmem
        · have hsilent : SilentAbout _ seen :=
            hlater.silentAbout_of_not_within not_within_later_self
          rw [hsilent.countP_eq_zero honce]
          omega
        · have hsilent : SilentAbout route seen :=
            hlater.silentAbout_of_not_within (within_of_mem_listing hmem).not_later
          rw [hsilent.countP_eq_zero honce]
          omega
        · exact ihRest hrest hmem hlater
      · suffices hbetween : between.countP counts ≤ 1 by
          simpa [honce.entered, honce.left] using hbetween
        rcases mem_listing_cons.mp hmem with ⟨_, ⟨rfl, rfl⟩ | hmemInside⟩ | hmemRest
        · cases hdoes with
          | on hcall hlater =>
              have hsilent : SilentAbout _ _ :=
                hlater.silentAbout_of_not_within not_within_later_self
              rw [List.countP_append, hsilent.countP_eq_zero honce,
                hcall.seen_of_never (hthrifty.1 _)]
              exact honce.call _ _ _
          | after | filter | failedFilter | passed | recovered | group =>
              simp [isTerminal] at hroute
        · have hwithin := within_of_mem_listing hmemInside
          cases hdoes with
          | group hinner hlater =>
              have hsilent : SilentAbout route _ :=
                hlater.silentAbout_of_not_within hwithin.not_later
              rw [List.countP_append, hsilent.countP_eq_zero honce]
              exact ihInside hinside hmemInside hinner
          | on | after | filter | failedFilter | passed | recovered =>
              simp [inside] at hmemInside
        · have hwithin := within_of_mem_listing hmemRest
          apply hdoes.countP_le_one honce hthrifty.1 hwithin.ne_self
          · apply hhere.2.imp id
            intro hstand ctx result seen hfailed
            exact Walks.silentAbout hthrifty.2.2 hstand hfailed hmemRest hroute
          · exact fun _ _ _ hinner => hinner.silentAbout_of_not_within hwithin.not_inside
          · exact fun _ _ _ => ihRest hrest hmemRest

end Handler

namespace Dispatcher

open Handler

variable [Routable E] (d : Dispatcher E W) (monitor : Monitor E W) (event : E)
  (attributes : Attributes)

/-- Notices about a route, of a kind that a call gives at most once, are given at most
once in a dispatch where every filter proceeds safely. -/
theorem countP_notices_le_one {route : Address} {listed : Handler E W}
    {counts : Notice E → Bool} (honce : Notice.OncePerCall route counts)
    (hsafe : Throughout ProceedsSafely [d.root])
    (hmem : (route, listed) ∈ all [d.root] [] 0) (hroute : listed.isTerminal) (world : W) :
    (d.notices monitor event attributes world).countP counts ≤ 1 := by
  obtain ⟨seen, hwalk, hnotices⟩ := d.walks_notices monitor event attributes world
  have hdispatching : counts (.dispatching (Routable.path event)) = false := by
    rw [Bool.eq_false_iff]
    intro hcounts
    cases honce.about _ hcounts
  rw [hnotices, List.countP_cons_of_neg (by simp [hdispatching])]
  exact hwalk.countP_le_one honce hsafe hmem hroute

end Dispatcher

end RequestRouting
