import RequestRouting.Proofs.Course

/-!
# Callbacks that do not look at positions

Most callbacks look at the event, the attributes, the exception and whether the request has
been answered, and neither at the predicate under which they were selected nor at the place
in the chain. Such a callback is oblivious: from contexts that show it the same it makes
plans that do the same, whatever the positions are, where a position is handed on only as
part of a context. That is said by quantifying over all relations between positions.

Two walks with oblivious callbacks run alike if their chains differ only in how the handlers
are numbered. `Position.Sees` is the invariant: from both positions, the same handlers of the
chain are ahead.
-/

namespace RequestRouting

open Handler (Throughout throughout_cons)

variable {E W : Type}

/-! ## Alike contexts and plans -/

/-- The contexts differ in nothing but their predicates and positions, and the positions are
related. -/
structure Context.Alike (R : Position → Position → Prop) (ctx other : Context E) : Prop where
  event : ctx.event = other.event
  attributes : ctx.attributes = other.attributes
  exception : ctx.exception = other.exception
  handled : ctx.handled = other.handled
  position : R ctx.position other.position

/-- The contexts differ in nothing but their predicates and positions. -/
abbrev Context.Agrees (ctx other : Context E) : Prop := ctx.Alike (fun _ _ => True) other

/-- The outcomes of two plans are the same failure or alike contexts. -/
inductive Context.OutcomesAlike (R : Position → Position → Prop) :
    Except Failure (Context E) → Except Failure (Context E) → Prop
  | ok {ctx other : Context E} (hctx : ctx.Alike R other) : OutcomesAlike R (.ok ctx) (.ok other)
  | error (failure : Failure) : OutcomesAlike R (.error failure) (.error failure)

/-- The plans do the same with alike contexts, in worlds that are related by `S`. -/
inductive Plan.Alike (R : Position → Position → Prop) (S : W → W → Prop) :
    Plan E W → Plan E W → Prop
  | done {ctx other : Context E} (hctx : ctx.Alike R other) : Alike R S (done ctx) (done other)
  | fail (failure : Failure) : Alike R S (fail failure) (fail failure)
  | panic (payload : PanicPayload) : Alike R S (panic payload) (panic payload)
  | next {ctx other : Context E} {resume otherResume : Context E → Plan E W}
      (hctx : ctx.Alike R other)
      (hresume : ∀ result otherResult, result.Alike R otherResult →
        Alike R S (resume result) (otherResume otherResult)) :
      Alike R S (next ctx resume) (next other otherResume)
  | act {update otherUpdate : W → W} {resume otherResume : W → Plan E W}
      (hupdate : ∀ world otherWorld, S world otherWorld →
        S (update world) (otherUpdate otherWorld))
      (hresume : ∀ world otherWorld, S world otherWorld →
        Alike R S (resume world) (otherResume otherWorld)) :
      Alike R S (act update resume) (act otherUpdate otherResume)
  | pause (how : Pause) {resume otherResume : Plan E W} (hresume : Alike R S resume otherResume) :
      Alike R S (pause how resume) (pause how otherResume)
  | abort {resume otherResume : Plan E W} (hresume : Alike R S resume otherResume) :
      Alike R S (abort resume) (abort otherResume)
  | limited (limit : Duration) {ctx other : Context E}
      {resume otherResume : Option (Context E) → Plan E W} (hctx : ctx.Alike R other)
      (hnone : Alike R S (resume none) (otherResume none))
      (hsome : ∀ result otherResult, result.Alike R otherResult →
        Alike R S (resume (some result)) (otherResume (some otherResult))) :
      Alike R S (limited limit ctx resume) (limited limit other otherResume)

/-- The callback of the handler looks neither at predicates nor at positions, and at no more
of the world than `S` keeps: whichever relation alike contexts are related by, as long as it
holds of positions outside any chain, it makes alike plans of them. -/
def Handler.Oblivious (S : W → W → Prop) (h : Handler E W) : Prop :=
  ∀ callback ∈ h.callback?, ∀ R : Position → Position → Prop,
    R Position.detached Position.detached →
      ∀ ctx other, ctx.Alike R other → (callback ctx).Alike R S (callback other)

namespace Context.Alike

variable {R : Position → Position → Prop} {ctx other : Context E}

theorem mono {R' : Position → Position → Prop}
    (himp : R ctx.position other.position → R' ctx.position other.position)
    (halike : ctx.Alike R other) : ctx.Alike R' other :=
  { halike with position := himp halike.position }

theorem agrees (halike : ctx.Alike R other) : ctx.Agrees other :=
  halike.mono fun _ => trivial

theorem withException (halike : ctx.Alike R other) (failure : Failure) :
    (ctx.withException failure).Alike R (other.withException failure) :=
  { halike with exception := rfl }

theorem withoutException (halike : ctx.Alike R other) :
    ctx.withoutException.Alike R other.withoutException :=
  { halike with exception := rfl }

end Context.Alike

/-! ## Positions in chains that are numbered differently -/

/-- From both positions the same handlers are ahead, among the ones from `index` on, where
`f` says which number a handler of the first chain has in the second one. -/
structure Position.Sees (f : Nat → Nat) (index : Nat) (p q : Position) : Prop where
  attached : p.attached = q.attached
  resumed : p.resumed = q.resumed
  ahead : p.attached = true → ∀ j, index ≤ j → (p.cursor ≤ j ↔ q.cursor ≤ f j)

/-- The numbers keep the order of the handlers. -/
def KeepsOrder (f : Nat → Nat) : Prop := ∀ j k, j < k ↔ f j < f k

theorem keepsOrder_id : KeepsOrder id := fun _ _ => Iff.rfl

theorem KeepsOrder.le_iff {f : Nat → Nat} (hf : KeepsOrder f) (j k : Nat) :
    j ≤ k ↔ f j ≤ f k := by
  rw [← Nat.not_lt, ← Nat.not_lt, hf k j]

namespace Position.Sees

variable {f : Nat → Nat} {index later : Nat} {p q : Position}

theorem detached (f : Nat → Nat) : Sees f 0 Position.detached Position.detached :=
  ⟨rfl, rfl, nofun⟩

theorem mono (hle : index ≤ later) (hsees : Sees f index p q) : Sees f later p q :=
  ⟨hsees.attached, hsees.resumed,
    fun hattached j hj => hsees.ahead hattached j (Nat.le_trans hle hj)⟩

/-- Outside any chain there is nothing ahead. -/
theorem of_detached (hdetached : p.attached = false) (hsees : Sees f index p q) :
    Sees f later p q := by
  refine ⟨hsees.attached, hsees.resumed, fun hattached => ?_⟩
  rw [hdetached] at hattached
  cases hattached

/-- Positions behind a handler, or behind as many handlers, have the same ahead. -/
theorem withCursor (hsees : Sees f index p q) {cursor other : Nat}
    (hcursor : ∀ j, cursor ≤ j ↔ other ≤ f j) :
    Sees f 0 { p with cursor := cursor } { q with cursor := other } :=
  ⟨hsees.attached, hsees.resumed, fun _ j _ => hcursor j⟩

theorem leave (hsees : Sees f 0 p q) (handled : Bool) :
    Sees f 0 { p with resumed := p.resumed || handled }
      { q with resumed := q.resumed || handled } :=
  ⟨hsees.attached, by rw [hsees.resumed], hsees.ahead⟩

end Position.Sees

namespace Context.Alike

variable {f : Nat → Nat} {index : Nat} {ctx other : Context E}

/-- Contexts that show the same go into the same handlers. -/
theorem goesInto_eq [Routable E] (halike : ctx.Alike (Position.Sees f index) other)
    (hattached : ctx.position.attached) {h twin : Handler E W}
    (hpredicate : h.predicate = twin.predicate) (hterminal : h.isTerminal = twin.isTerminal) :
    ctx.goesInto index h = other.goesInto (f index) twin := by
  have hcursor := halike.position.ahead hattached index (Nat.le_refl _)
  simp only [Context.goesInto, Handler.runsOnFailure, halike.event, halike.exception,
    halike.handled, halike.position.resumed, hpredicate, hterminal, hcursor]

theorem select [Routable E] (hf : KeepsOrder f)
    (halike : ctx.Alike (Position.Sees f index) other) (p : Predicate E) :
    (ctx.select p index).Alike (Position.Sees f 0) (other.select p (f index)) where
  event := halike.event
  attributes := by simp only [Context.select, halike.event, halike.attributes]
  exception := halike.exception
  handled := halike.handled
  position := halike.position.withCursor (hf index)

theorem atEnd (hf : KeepsOrder f) (halike : ctx.Alike (Position.Sees f index) other) :
    (ctx.atEnd index).Alike (Position.Sees f 0) (other.atEnd (f index)) where
  event := halike.event
  attributes := halike.attributes
  exception := halike.exception
  handled := halike.handled
  position := halike.position.withCursor (hf.le_iff index)

theorem enter (halike : ctx.Alike (Position.Sees f index) other) (g : Nat → Nat) :
    ctx.enter.Alike (Position.Sees g 0) other.enter where
  event := halike.event
  attributes := halike.attributes
  exception := halike.exception
  handled := halike.handled
  position := ⟨rfl, halike.handled, fun _ j _ => iff_of_true (Nat.zero_le j) (Nat.zero_le _)⟩

theorem leave {inner otherInner : Context E} {R : Position → Position → Prop}
    (hinner : inner.Alike R otherInner) {p q : Position} (hsees : Position.Sees f 0 p q) :
    (inner.leave p).Alike (Position.Sees f 0) (otherInner.leave q) where
  event := hinner.event
  attributes := hinner.attributes
  exception := hinner.exception
  handled := hinner.handled
  position := by
    simp only [Context.leave, hinner.handled]
    exact hsees.leave otherInner.handled

end Context.Alike

/-! ## Runs that are alike -/

/-- The notices are about corresponding handlers, where `ρ` says where the handlers of the
first tree are in the second one, and about contexts that agree. -/
inductive Notice.Alike (ρ : Address → Address) : Notice E → Notice E → Prop
  | entered (address : Address) : Alike ρ (.entered address) (.entered (ρ address))
  | left (address : Address) : Alike ρ (.left address) (.left (ρ address))
  | called (address : Address) {ctx other : Context E} (hctx : ctx.Agrees other) :
      Alike ρ (.called address ctx) (.called (ρ address) other)
  | returned (address : Address) {ctx other : Context E} (hctx : ctx.Agrees other) :
      Alike ρ (.returned address ctx) (.returned (ρ address) other)
  | failed (address : Address) {ctx other : Context E} (hctx : ctx.Agrees other)
      (failure : Failure) :
      Alike ρ (.failed address ctx failure) (.failed (ρ address) other failure)

/-- Giving alike notices keeps worlds related. -/
def Monitor.Keeps (monitor : Monitor E W) (ρ : Address → Address) (S : W → W → Prop) : Prop :=
  ∀ notice other, notice.Alike ρ other → ∀ world otherWorld, S world otherWorld →
    S (monitor notice world) (monitor other otherWorld)

/-- Two runs end with alike contexts, in related worlds. -/
structure EndsAlike (R : Position → Position → Prop) (S : W → W → Prop)
    (ending other : Context E × W) : Prop where
  context : ending.1.Alike R other.1
  world : S ending.2 other.2

/-- Started from contexts that are alike by `R`, in related worlds, both runs end with contexts
that are alike by `R'`, in related worlds. -/
def RunsAlike (R R' : Position → Position → Prop) (S : W → W → Prop)
    (run other : Context E → W → Context E × W) : Prop :=
  ∀ ⦃ctx otherCtx⦄, ctx.Alike R otherCtx → ∀ ⦃world otherWorld⦄, S world otherWorld →
    EndsAlike R' S (run ctx world) (other otherCtx otherWorld)

variable {R : Position → Position → Prop} {S : W → W → Prop}

/-- Runs that are alike where the same handlers are ahead from an index on are alike where all
handlers ahead are the same. -/
theorem RunsAlike.of_ahead {f : Nat → Nat} {index : Nat}
    {run other : Context E → W → Context E × W}
    (halike : RunsAlike (Position.Sees f index) R S run other) :
    RunsAlike (Position.Sees f 0) R S run other :=
  fun _ _ hctx => halike (hctx.mono (Position.Sees.mono (Nat.zero_le _)))

section Callbacks

variable {next otherNext : Context E → W → Context E × W} (hnext : RunsAlike R R S next otherNext)

include hnext

/-- Alike plans are carried out alike. -/
theorem Plan.Alike.run {plan other : Plan E W} (halike : plan.Alike R S other)
    {world otherWorld : W} (hworld : S world otherWorld) :
    Context.OutcomesAlike R (plan.run next world).1 (other.run otherNext otherWorld).1 ∧
      S (plan.run next world).2 (other.run otherNext otherWorld).2 := by
  induction halike generalizing world otherWorld with
  | done hctx => exact ⟨.ok hctx, hworld⟩
  | fail failure => exact ⟨.error failure, hworld⟩
  | panic payload => exact ⟨.error _, hworld⟩
  | next hctx _ ih =>
      have hends := hnext hctx hworld
      exact ih _ _ hends.context hends.world
  | act hupdate _ ih =>
      have hafter := hupdate _ _ hworld
      exact ih _ _ hafter hafter
  | pause how _ ih => exact ih hworld
  | abort _ ih => exact ih hworld
  | limited limit hctx _ _ _ ihSome =>
      have hends := hnext hctx hworld
      exact ihSome _ _ hends.context hends.world

namespace Blocking

variable {monitor : Monitor E W} {ρ : Address → Address} (hmonitor : monitor.Keeps ρ S)

include hmonitor

/-- The callback of an oblivious handler is called alike. -/
theorem invoke_alike {h : Handler E W} (hoblivious : h.Oblivious S) {callback : Callback E W}
    (hcallback : h.callback? = some callback) (hR : R Position.detached Position.detached)
    (address : Address) {ctx other : Context E} (hctx : ctx.Alike R other)
    {world otherWorld : W} (hworld : S world otherWorld) :
    (invoke monitor address callback next ctx world).1 =
        (invoke monitor (ρ address) callback otherNext other otherWorld).1 ∧
      EndsAlike R S (invoke monitor address callback next ctx world).2
        (invoke monitor (ρ address) callback otherNext other otherWorld).2 := by
  have hplan := hoblivious callback hcallback R hR ctx other hctx
  have hcalled := hmonitor _ _ (.called address hctx.agrees) _ _ hworld
  obtain ⟨houtcome, hafter⟩ := hplan.run hnext hcalled
  simp only [invoke]
  generalize (callback ctx).run next (monitor (.called address ctx) world) = ran
    at houtcome hafter ⊢
  generalize (callback other).run otherNext (monitor (.called (ρ address) other) otherWorld) =
    otherRan at houtcome hafter ⊢
  obtain ⟨outcome, after⟩ := ran
  obtain ⟨otherOutcome, otherAfter⟩ := otherRan
  cases houtcome with
  | ok hresult =>
      exact ⟨rfl, hresult, hmonitor _ _ (.returned address hresult.agrees) _ _ hafter⟩
  | error failure =>
      exact ⟨rfl, hctx.withException failure,
        hmonitor _ _ (.failed address hctx.agrees failure) _ _ hafter⟩

end Blocking

end Callbacks

namespace Blocking

variable [Routable E] {monitor : Monitor E W} {ρ : Address → Address} {f : Nat → Nat}

section Process

variable {next otherNext : Context E → W → Context E × W}
  (hnext : RunsAlike (Position.Sees f 0) (Position.Sees f 0) S next otherNext)

include hnext

/-- Two groups run alike if the chains inside them do. -/
theorem process_group_alike {g : Nat → Nat} {p q : Predicate E}
    {handlers twins : List (Handler E W)} {address other : Address}
    (hinner : RunsAlike (Position.Sees g 0) R S (walk monitor handlers address 0)
      (walk monitor twins other 0)) :
    RunsAlike (Position.Sees f 0) (Position.Sees f 0) S
      (process monitor (.group p handlers) address next)
      (process monitor (.group q twins) other otherNext) := by
  intro ctx otherCtx hctx world otherWorld hworld
  have hends := hinner (hctx.enter g) hworld
  simp only [process]
  exact hnext (hends.context.leave hctx.position) hends.world

variable (hmonitor : monitor.Keeps ρ S)

include hmonitor

/-- An oblivious handler runs alike, where the chain inside it does. -/
theorem process_alike {h : Handler E W} (hoblivious : h.Oblivious S) (address : Address)
    (hinner : RunsAlike (Position.Sees id 0) (Position.Sees id 0) S
      (walk monitor h.inside address 0) (walk monitor h.inside (ρ address) 0)) :
    RunsAlike (Position.Sees f 0) (Position.Sees f 0) S (process monitor h address next)
      (process monitor h (ρ address) otherNext) := by
  intro ctx other hctx world otherWorld hworld
  have hdetached := Position.Sees.detached f
  cases h with
  | on p callback =>
      obtain ⟨_, hcalled⟩ :=
        invoke_alike hnext hmonitor hoblivious rfl hdetached address hctx hworld
      exact hnext hcalled.context hcalled.world
  | after p callback =>
      have hends := hnext hctx hworld
      exact (invoke_alike hnext hmonitor hoblivious rfl hdetached address hends.context
        hends.world).2
  | filter p callback =>
      obtain ⟨hsucceeded, hcalled⟩ :=
        invoke_alike hnext hmonitor hoblivious rfl hdetached address hctx hworld
      simp only [process, hsucceeded]
      split
      · exact hcalled
      · exact hnext hcalled.context hcalled.world
  | recover p accepts callback clears =>
      have hends := hnext hctx hworld
      simp only [process, hends.context.exception]
      split
      · obtain ⟨hsucceeded, hcalled⟩ :=
          invoke_alike hnext hmonitor hoblivious rfl hdetached address hends.context hends.world
        refine ⟨?_, hcalled.world⟩
        simp only [hsucceeded]
        split
        · exact hcalled.context.withoutException
        · exact hcalled.context
      · exact hends
  | group p handlers => exact process_group_alike hnext hinner hctx hworld

end Process

section Walk

variable (hmonitor : monitor.Keeps ρ S) (hf : KeepsOrder f)
  {rest twins : List (Handler E W)} {address other : Address} {index start : Nat}
  (hstart : f index = start) (haddress : ρ (address ++ [index]) = other ++ [start])
  (hrest : RunsAlike (Position.Sees f (index + 1)) (Position.Sees f 0) S
    (walk monitor rest address (index + 1)) (walk monitor twins other (start + 1)))

include hmonitor hf hstart haddress hrest

/-- Walks through two chains are alike if the first handlers and the rests are. -/
theorem walk_cons_alike {h twin : Handler E W} (hpredicate : h.predicate = twin.predicate)
    (hterminal : h.isTerminal = twin.isTerminal)
    (hprocess : RunsAlike (Position.Sees f 0) (Position.Sees f 0) S
      (process monitor h (address ++ [index]) (walk monitor rest address (index + 1)))
      (process monitor twin (ρ (address ++ [index])) (walk monitor twins other (start + 1)))) :
    RunsAlike (Position.Sees f index) (Position.Sees f 0) S
      (walk monitor (h :: rest) address index) (walk monitor (twin :: twins) other start) := by
  intro ctx otherCtx hctx world otherWorld hworld
  subst hstart
  -- Both contexts stand in a chain or neither does, and both go into the handler or neither.
  rw [walk, walk, ← hctx.position.attached]
  by_cases hattached : ctx.position.attached
  · rw [if_pos hattached, if_pos hattached, ← hctx.goesInto_eq hattached hpredicate hterminal]
    by_cases hinto : ctx.goesInto index h
    · rw [if_pos hinto, if_pos hinto, ← hpredicate]
      have hentered := hmonitor _ _ (.entered (address ++ [index])) _ _ hworld
      have hends := hprocess (hctx.select hf h.predicate) hentered
      have hleft := hmonitor _ _ (.left (address ++ [index])) _ _ hends.world
      simp only [← haddress]
      exact ⟨hends.context, hleft⟩
    · rw [if_neg hinto, if_neg hinto]
      exact hrest (hctx.mono (Position.Sees.mono (Nat.le_succ index))) hworld
  · rw [if_neg hattached, if_neg hattached]
    exact ⟨hctx.mono (Position.Sees.of_detached (by simpa using hattached)), hworld⟩

/-- Walks that begin with the same oblivious handler are alike if the rests are, and the walks
through the chain inside the handler. -/
theorem walk_cons_alike_of_oblivious {h : Handler E W} (hoblivious : h.Oblivious S)
    (hinner : RunsAlike (Position.Sees id 0) (Position.Sees id 0) S
      (walk monitor h.inside (address ++ [index]) 0)
      (walk monitor h.inside (other ++ [start]) 0)) :
    RunsAlike (Position.Sees f index) (Position.Sees f 0) S
      (walk monitor (h :: rest) address index) (walk monitor (h :: twins) other start) := by
  rw [← haddress] at hinner
  exact walk_cons_alike hmonitor hf hstart haddress hrest rfl rfl
    (process_alike hrest.of_ahead hmonitor hoblivious (address ++ [index]) hinner)

/-- Walks that begin with two groups are alike if the rests are, and the walks through the
chains inside the groups. -/
theorem walk_group_alike {g : Nat → Nat} {p : Predicate E} {inside twin : List (Handler E W)}
    (hinner : RunsAlike (Position.Sees g 0) R S (walk monitor inside (address ++ [index]) 0)
      (walk monitor twin (other ++ [start]) 0)) :
    RunsAlike (Position.Sees f index) (Position.Sees f 0) S
      (walk monitor (.group p inside :: rest) address index)
      (walk monitor (.group p twin :: twins) other start) := by
  rw [← haddress] at hinner
  have hprocess := process_group_alike (p := p) (q := p) hrest.of_ahead hinner
  exact walk_cons_alike hmonitor hf hstart haddress hrest rfl rfl hprocess

end Walk

/-- Wherever a chain stands in the two trees, walks through it are alike: from `index` on at
`address` in the first one, from `start` on at `other` in the second one. -/
theorem walk_alike (hmonitor : monitor.Keeps ρ S) {handlers : List (Handler E W)}
    (hoblivious : Throughout (fun h _ => h.Oblivious S) handlers) (hf : KeepsOrder f)
    {address other : Address} {index start : Nat} (hshift : ∀ k, f (index + k) = start + k)
    (hplace : ∀ k inner, ρ (address ++ (index + k) :: inner) = other ++ (start + k) :: inner) :
    RunsAlike (Position.Sees f index) (Position.Sees f 0) S
      (walk monitor handlers address index) (walk monitor handlers other start) := by
  induction handlers using Handler.chainInduction generalizing f address other index start with
  | nil =>
      intro ctx otherCtx hctx world otherWorld hworld
      obtain rfl : f index = start := hshift 0
      rw [walk, walk, ← hctx.position.attached]
      by_cases hattached : ctx.position.attached
      · rw [if_pos hattached, if_pos hattached]
        exact ⟨hctx.atEnd hf, hworld⟩
      · rw [if_neg hattached, if_neg hattached]
        exact ⟨hctx.mono (Position.Sees.of_detached (by simpa using hattached)), hworld⟩
  | cons h rest ihInside ihRest =>
      obtain ⟨hhere, hinside, hrest⟩ := throughout_cons.mp hoblivious
      have hstart : f index = start := hshift 0
      have haddress : ρ (address ++ [index]) = other ++ [start] := hplace 0 []
      refine walk_cons_alike_of_oblivious hmonitor hf hstart haddress ?_ hhere ?_
      · refine ihRest hrest hf (fun k => ?_) fun k inner => ?_
        · rw [Nat.add_assoc, hshift, Nat.add_assoc]
        · rw [Nat.add_assoc, hplace, Nat.add_assoc]
      · refine ihInside hinside keepsOrder_id (fun _ => rfl) fun k inner => ?_
        simpa using hplace 0 (k :: inner)

end Blocking

end RequestRouting
