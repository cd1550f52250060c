import RequestRouting.Proofs.FirstRoute

/-!
# How a failure goes back through a chain

When a route fails, the routes behind it are passed over, and the handlers that wrap the rest of
the chain come to their end one after the other, the last one first. Those that take care of the
failure are called on the way, also if they stand behind the route, until one of them puts the
failure away (`Handler.takers`); nobody hears of it after that, and no route is taken up again.

The walks of this module go through chains without groups whose handlers leave contexts as they
are. `Walks.unwinds` is about a walk that starts from a failed context, and `Walks.breaks` about
one that comes to a route of which nothing is known. What that route does with the rest of the chain
before it fails is its own affair.
-/

namespace RequestRouting

open Address (Within)

variable {E W : Type}

/-- A call is a run of the callback between the notices about the call. -/
theorem Callback.Calls.exists_runs {rest : Course E} {address : Address}
    {callback : Callback E W} {ctx : Context E} {outcome : Except Failure (Context E)}
    {seen : List (Notice E)} (hcall : callback.Calls rest address ctx outcome seen) :
    ∃ during, (callback ctx).Runs rest outcome during ∧
      seen = .called address ctx :: (during ++ [.ended address ctx outcome]) := by
  obtain ⟨hruns⟩ := hcall
  exact ⟨_, hruns, rfl⟩

namespace Handler

/-! ## Handlers that take care of failures -/

/-- The callback leaves contexts as they are: a filter runs the rest of the chain once and returns
the result, and all others return the context that they get. Groups are left out. -/
def Transparent : Handler E W → Prop
  | on _ callback | after _ callback | recover _ _ callback _ =>
      ∀ ctx, (callback ctx).Returns fun result => result = ctx
  | filter _ callback => ∀ ctx, (callback ctx).Wraps ctx
  | group _ _ => False

/-- Whether the handler takes care of failures. -/
def isRecovery : Handler E W → Bool
  | recover _ _ _ _ => true
  | on _ _ | after _ _ | filter _ _ | group _ _ => false

/-- Whether the handler takes care of an exception. -/
def catches : Handler E W → Failure → Bool
  | recover _ accepts _ _ => accepts
  | on _ _ | after _ _ | filter _ _ | group _ _ => fun _ => false

/-- Whether the handler puts away what it has taken care of. -/
def clears : Handler E W → Bool
  | recover _ _ _ clears => clears
  | on _ _ | after _ _ | filter _ _ | group _ _ => false

/-- The handlers that take care of an exception: those that accept it, from the last towards the
first, up to one that puts it away. -/
def takers (exception : Failure) (listed : List (Address × Handler E W)) :
    List (Address × Handler E W) :=
  let catching := (listed.filter fun x => x.2.catches exception).reverse
  catching.takeWhile (fun x => !x.2.clears) ++ (catching.find? fun x => x.2.clears).toList

/-- Whether one of the handlers puts an exception away. -/
def cleared (exception : Failure) (listed : List (Address × Handler E W)) : Bool :=
  listed.any fun x => x.2.catches exception && x.2.clears

section Takers

variable {exception : Failure} {listed : List (Address × Handler E W)} {x : Address × Handler E W}

theorem takeThrough_concat {α : Type} (p : α → Bool) (xs : List α) (x : α) :
    (xs ++ [x]).takeWhile (fun y => !p y) ++ ((xs ++ [x]).find? p).toList =
      xs.takeWhile (fun y => !p y) ++ (xs.find? p).toList ++ if xs.any p then [] else [x] := by
  induction xs with
  | nil => by_cases hx : p x <;> simp [hx]
  | cons y xs ih =>
      by_cases hy : p y
      · simp [hy]
      · simpa [hy] using ih

/-- A handler in front of others takes care of an exception that none of them puts away. -/
theorem takers_cons :
    takers exception (x :: listed) =
      takers exception listed ++
        if x.2.catches exception && !cleared exception listed then [x] else [] := by
  have hany : ((listed.filter fun x => x.2.catches exception).reverse.any fun x => x.2.clears) =
      cleared exception listed := by
    rw [List.any_reverse, List.any_filter]
    rfl
  unfold takers
  by_cases hcatches : x.2.catches exception
  · simp only [List.filter_cons, hcatches, if_true, List.reverse_cons, takeThrough_concat, hany]
    cases cleared exception listed <;> rfl
  · simp [hcatches]

theorem cleared_cons :
    cleared exception (x :: listed) =
      (x.2.catches exception && x.2.clears || cleared exception listed) := rfl

theorem catches_eq_false_of_isTerminal {h : Handler E W} (hterminal : h.isTerminal) :
    h.catches exception = false := by
  cases h <;> first | rfl | cases hterminal

end Takers

theorem Transparent.callback {h : Handler E W} (htransparent : h.Transparent) :
    h.callback?.isSome := by
  cases h <;> first | rfl | exact htransparent.elim

/-! ## One handler -/

namespace Does

variable {rest inner : Course E} {address : Address} {ctx result : Context E}
  {seen : List (Notice E)}

/-- A route that leaves contexts as they are hands its context on. -/
theorem on_transparent {p : Predicate E} {callback : Callback E W}
    (hdoes : (Handler.on p callback).Does rest inner address ctx result seen)
    (htransparent : (Handler.on p callback).Transparent) :
    ∃ later, rest ctx result later ∧
      seen = .called address ctx :: .returned address ctx :: later := by
  cases hdoes with
  | @on _ _ _ _ _ _ later hcall hrest =>
      obtain ⟨hruns⟩ := hcall
      obtain ⟨_, rfl, rfl, rfl⟩ := hruns.of_returns (htransparent ctx)
      exact ⟨later, hrest, rfl⟩

/-- Any other handler that leaves contexts as they are runs the rest of the chain once. It is called
before that or after it, and a failure that comes back may be put away. -/
theorem of_transparent {h : Handler E W} (hdoes : h.Does rest inner address ctx result seen)
    (htransparent : h.Transparent) (hterminal : h.isTerminal = false) :
    ∃ attributes middle opening between closing,
      rest { ctx with attributes } middle between ∧ seen = opening ++ between ++ closing ∧
        calleesOf opening = (if h.opens then [address] else []) ∧
        calleesOf closing =
          (if h.closes || middle.exception.any h.catches then [address] else []) ∧
        result =
          if middle.exception.any h.catches && h.clears then middle.withoutException
          else middle := by
  have hnobody (exception : Option Failure) : exception.any (fun _ => false) = false := by
    cases exception <;> rfl
  cases h with
  | on => cases hterminal
  | group => exact htransparent.elim
  | after p callback =>
      obtain ⟨first, hfirst, rfl⟩ := hdoes.after_plain htransparent
      exact ⟨ctx.attributes, result, [], first, _, hfirst, rfl, rfl, rfl, by simp [clears]⟩
  | filter p callback =>
      obtain ⟨attributes, between, hbetween, rfl⟩ := hdoes.filter_plain htransparent
      refine ⟨attributes, result, [.called address ctx], between, [.returned address result],
        hbetween, rfl, rfl, ?_, by simp [clears]⟩
      simp [closes, catches, hnobody, Notice.call?]
  | recover p accepts callback clears =>
      cases hdoes with
      | passed hearlier hpassed =>
          refine ⟨ctx.attributes, result, [], seen, [], hearlier, by simp, rfl, ?_, ?_⟩ <;>
            simp [closes, catches, hpassed]
      | @recovered _ _ _ _ _ middle _ first _ hearlier haccepts hcall =>
          obtain ⟨hruns⟩ := hcall
          obtain ⟨back, rfl, hback, rfl⟩ := hruns.of_returns (htransparent middle)
          subst back
          refine ⟨ctx.attributes, middle, [], first, _, hearlier, rfl, rfl, ?_, ?_⟩
          · simp [closes, catches, haccepts, Notice.call?, Notice.ended]
          · simp [catches, haccepts, Context.afterRecovery, Handler.clears]

end Does

end Handler

/-! ## Contexts with a failure and without -/

/-- The context is about the event, is not answered, and bears the exception, if there is one. -/
structure Context.Bears (event : E) (exception : Option Failure) (ctx : Context E) : Prop where
  event : ctx.event = event
  exception : ctx.exception = exception
  handled : ctx.handled = false

namespace Context.Bears

variable {event : E} {exception : Option Failure} {ctx : Context E} {index : Nat}

theorem withAttributes (hbears : ctx.Bears event exception) (attributes : Attributes) :
    ({ ctx with attributes } : Context E).Bears event exception :=
  ⟨hbears.event, hbears.exception, hbears.handled⟩

theorem withException (hbears : ctx.Bears event exception) (failure : Failure) :
    (ctx.withException failure).Bears event (some failure.exception) :=
  ⟨hbears.event, rfl, hbears.handled⟩

theorem withoutException (hbears : ctx.Bears event exception) :
    ctx.withoutException.Bears event none :=
  ⟨hbears.event, rfl, hbears.handled⟩

variable [Routable E]

theorem select (hbears : ctx.Bears event exception) (p : Predicate E) (index : Nat) :
    (ctx.select p index).Bears event exception :=
  ⟨hbears.event, hbears.exception, hbears.handled⟩

/-- After a failure a context goes into all handlers but the routes. -/
theorem goesInto (hbears : ctx.Bears event exception) (hawaits : ctx.position.Awaits index false)
    (h : Handler E W) :
    ctx.goesInto index h =
      ((exception.isNone || !h.isTerminal) && Handler.accepts event h) := by
  simp [Context.goesInto, Handler.runsOnFailure, Handler.accepts, hbears.event, hbears.exception,
    hbears.handled, hawaits.cursor]

end Context.Bears

namespace Handler

/-! ## After a failure -/

/-- How an exception has gone back through the handlers of a list: what has been called on the way,
and the context that has come out. -/
structure Unwinds (event : E) (exception : Failure) (listed calls : List (Address × Handler E W))
    (result : Context E) : Prop where
  /-- Only handlers of the list have been called. -/
  subset : calls ⊆ listed
  /-- No route has been. -/
  routes : calls.filter (fun x => x.2.isTerminal) = []
  /-- Of those that take care of failures, the takers of the exception have been, in order. -/
  recoveries : calls.filter (fun x => x.2.isRecovery) = takers exception listed
  /-- The exception is still there if no taker has put it away. -/
  result : result.Bears event (if cleared exception listed then none else some exception)

namespace Unwinds

variable {event : E} {exception : Failure} {listed calls : List (Address × Handler E W)}
  {middle result : Context E} {address : Address} {h : Handler E W}

/-- A route that is passed over makes no difference. -/
theorem cons_route (hunwinds : Unwinds event exception listed calls result)
    (hterminal : h.isTerminal) :
    Unwinds event exception ((address, h) :: listed) calls result where
  subset := List.subset_cons_of_subset _ hunwinds.subset
  routes := hunwinds.routes
  recoveries := by
    rw [takers_cons, catches_eq_false_of_isTerminal hterminal, hunwinds.recoveries]
    exact (List.append_nil _).symm
  result := by
    rw [cleared_cons, catches_eq_false_of_isTerminal hterminal]
    exact hunwinds.result

/-- Another handler is called before the others, after them, or because of the exception that they
leave. -/
theorem cons_wrapper (hunwinds : Unwinds event exception listed calls middle)
    (hterminal : h.isTerminal = false) (opened : Bool) :
    Unwinds event exception ((address, h) :: listed)
      ((if opened && h.opens then [(address, h)] else []) ++ calls ++
        if h.closes || middle.exception.any h.catches then [(address, h)] else [])
      (if middle.exception.any h.catches && h.clears then middle.withoutException
        else middle) := by
  obtain ⟨hsubset, hroutes, hrecoveries, hresult⟩ := hunwinds
  have hcaught : middle.exception.any h.catches =
      (h.catches exception && !cleared exception listed) := by
    rw [hresult.exception]
    cases cleared exception listed <;> simp
  constructor
  · grind
  · cases opened <;> simp [List.filter_append, hroutes, hterminal]
  · rw [takers_cons, hcaught]
    cases h <;> simp_all [opens, closes, isRecovery, catches]
  · rw [cleared_cons, hcaught]
    cases hcleared : cleared exception listed with
    | true => simpa [hcleared] using hresult
    | false =>
        cases hputsAway : h.catches exception && h.clears with
        | true => simpa [hputsAway] using hresult.withoutException
        | false => simpa [hputsAway, hcleared] using hresult

end Unwinds

/-! ## Calls and listings -/

section Listings

variable {handlers : List (Handler E W)} {address : Address} {index : Nat}

theorem listing_append {keep : Handler E W → Bool} (first second : List (Handler E W))
    (address : Address) (index : Nat) :
    listing keep (first ++ second) address index =
      listing keep first address index ++
        listing keep second address (index + first.length) := by
  induction first generalizing index with
  | nil => rw [listing_nil]; rfl
  | cons h rest ih =>
      have hlength : index + 1 + rest.length = index + (h :: rest).length := by
        rw [List.length_cons]
        omega
      rw [List.cons_append, listing_cons, listing_cons, ih, List.append_assoc, hlength]

/-- Which calls are calls of handlers of one kind. -/
theorem filter_callees {keep chosen : Handler E W → Bool} {calls : List (Address × Handler E W)}
    (hlisted : calls ⊆ listing keep handlers address index) :
    (calls.map Prod.fst).filter
        (· ∈ addresses chosen (listing keep handlers address index)) =
      (calls.filter fun x => chosen x.2).map Prod.fst := by
  rw [List.filter_map]
  congr 1
  apply List.filter_congr
  intro x hx
  simp [mem_addresses_iff (hlisted hx)]

end Listings

/-! ## Walks -/

section Walks

variable [Routable E] {event : E} {exception : Failure} {h : Handler E W}
  {rest handlers before behind : List (Handler E W)} {address : Address} {index : Nat}
  {ctx result : Context E} {seen : List (Notice E)}

theorem listing_cons_of_accepts (haccepts : accepts event h) (hcallback : h.callback?.isSome) :
    listing (accepts event) (h :: rest) address index =
      (address ++ [index], h) :: listing (accepts event) rest address (index + 1) := by
  rw [listing_cons, if_pos haccepts, inside_eq_nil_of_callback hcallback, listing_nil]
  rfl

theorem listing_cons_of_not_accepts (haccepts : accepts event h = false) :
    listing (accepts event) (h :: rest) address index =
      listing (accepts event) rest address (index + 1) := by
  rw [listing_cons, haccepts]
  rfl

/-- A context outside an answered request goes on to the next handler or goes into it. -/
theorem Walks.cons_bears {exception : Option Failure}
    (hwalk : Walks (h :: rest) address index ctx result seen) (hbears : ctx.Bears event exception)
    (hawaits : ctx.position.Awaits index false) :
    (((exception.isNone || !h.isTerminal) && accepts event h) = false ∧
        Walks rest address (index + 1) ctx result seen) ∨
      (((exception.isNone || !h.isTerminal) && accepts event h) = true ∧
        ∃ between, h.Does (Walks rest address (index + 1)) (Walks h.inside (address ++ [index]) 0)
            (address ++ [index]) (ctx.select h.predicate index) result between ∧
          seen = .entered (address ++ [index]) :: (between ++ [.left (address ++ [index])])) := by
  rw [← hbears.goesInto hawaits h]
  rcases walks_cons hwalk with ⟨hdetached, _, _⟩ | ⟨_, hgoes, hlater⟩ | ⟨_, hgoes, hdoes⟩
  · rw [hawaits.attached] at hdetached
    cases hdetached
  · exact .inl ⟨hgoes, hlater⟩
  · exact .inr ⟨hgoes, hdoes⟩

/-- A failed context calls no route, and the exception goes back through the chain. -/
theorem Walks.unwinds (htransparent : ∀ h ∈ handlers, h.Transparent)
    (hbears : ctx.Bears event (some exception)) (hawaits : ctx.position.Awaits index false)
    (hwalk : Walks handlers address index ctx result seen) :
    ∃ calls, calleesOf seen = calls.map Prod.fst ∧
      Unwinds event exception (listing (accepts event) handlers address index) calls result := by
  induction handlers generalizing address index ctx result seen with
  | nil =>
      obtain ⟨rfl, rfl⟩ := walks_nil hwalk
      rw [if_pos hawaits.attached, listing_nil]
      exact ⟨[], rfl, List.Subset.refl _, rfl, rfl, hbears.event, hbears.exception, hbears.handled⟩
  | cons h rest ih =>
      have hhere := htransparent h List.mem_cons_self
      have hrest : ∀ later ∈ rest, later.Transparent := fun later hlater =>
        htransparent later (.tail _ hlater)
      rcases hwalk.cons_bears hbears hawaits with ⟨hpassed, hlater⟩ | ⟨hgoes, between, hdoes, rfl⟩
      · obtain ⟨calls, hcalls, hunwinds⟩ := ih hrest hbears hawaits.skip hlater
        refine ⟨calls, hcalls, ?_⟩
        cases haccepts : accepts event h with
        | false => rwa [listing_cons_of_not_accepts haccepts]
        | true =>
            rw [listing_cons_of_accepts haccepts hhere.callback]
            exact hunwinds.cons_route (by simpa [haccepts] using hpassed)
      · obtain ⟨hterminal, haccepts⟩ : h.isTerminal = false ∧ accepts event h = true := by
          simpa using hgoes
        obtain ⟨attributes, middle, opening, later, closing, hwalked, rfl, hopening, hclosing,
          rfl⟩ := hdoes.of_transparent hhere hterminal
        obtain ⟨calls, hcalls, hunwinds⟩ := ih hrest
          ((hbears.select h.predicate index).withAttributes attributes)
          (hawaits.select h.predicate) hwalked
        refine ⟨_, ?_, listing_cons_of_accepts haccepts hhere.callback ▸
          hunwinds.cons_wrapper hterminal true⟩
        rw [calleesOf_bracket, calleesOf_append, calleesOf_append, hopening, hclosing, hcalls]
        simp only [List.map_append, Bool.true_and, apply_ite (List.map Prod.fst), List.map_cons,
          List.map_nil]

/-- How a walk comes to a route: what is called before it, the call itself with what it does with
the rest of the chain, and what is called after it if it fails. -/
structure Breaks (event : E) (before behind : List (Handler E W)) (p : Predicate E)
    (callback : Callback E W) (address : Address) (index : Nat) (result : Context E)
    (seen : List (Notice E)) (given : Context E) (outcome : Except Failure (Context E))
    (front during back : List (Notice E)) : Prop where
  seen : seen = front ++ .called (address ++ [index + before.length]) given ::
    (during ++ .ended (address ++ [index + before.length]) given outcome :: back)
  /-- The routes in front of it are called, and nobody takes care of a failure. -/
  front : ∃ calls, calleesOf front = calls.map Prod.fst ∧
    calls ⊆ listing (accepts event) before address index ∧
    calls.filter (fun x => x.2.isTerminal) =
      (listing (accepts event) before address index).filter (fun x => x.2.isTerminal) ∧
    calls.filter (fun x => x.2.isRecovery) = []
  /-- The callback itself can only reach the handlers behind it. -/
  during : (callback given).Runs (Walks behind address (index + before.length + 1)) outcome during
  /-- A failure goes back through the whole chain. -/
  back : ∀ failure, outcome = .error failure → ∃ calls, calleesOf back = calls.map Prod.fst ∧
    Unwinds event failure.exception
      (listing (accepts event) (before ++ on p callback :: behind) address index) calls result

section Breaks

variable {p : Predicate E} {callback : Callback E W} {middle given : Context E}
  {outcome : Except Failure (Context E)} {front during back pre post : List (Notice E)}

/-- A handler in front of the chain, with what is called of it before the rest of the chain and
after it. -/
theorem Breaks.extend {own opening : List (Address × Handler E W)}
    (hbreaks : Breaks event before behind p callback address (index + 1) middle seen given outcome
      front during back)
    (hlisting : listing (accepts event) (h :: before) address index =
      own ++ listing (accepts event) before address (index + 1))
    (hsubset : opening ⊆ own)
    (hroutes : opening.filter (fun x => x.2.isTerminal) = own.filter fun x => x.2.isTerminal)
    (hrecoveries : opening.filter (fun x => x.2.isRecovery) = [])
    (hpre : calleesOf pre = opening.map Prod.fst)
    (hpost : ∀ exception calls,
      Unwinds event exception
        (listing (accepts event) (before ++ on p callback :: behind) address (index + 1)) calls
        middle →
      ∃ closing, calleesOf post = closing.map Prod.fst ∧
        Unwinds event exception
          (listing (accepts event) (h :: (before ++ on p callback :: behind)) address index)
          (calls ++ closing) result)
    {whole : List (Notice E)} (hwhole : whole = pre ++ seen ++ post) :
    Breaks event (h :: before) behind p callback address index result whole given outcome
      (pre ++ front) during (back ++ post) := by
  subst hwhole
  obtain ⟨hseen, ⟨calls, hcalls, hlisted, hterminals, hnone⟩, hduring, hback⟩ := hbreaks
  have hroute : index + 1 + before.length = index + (h :: before).length := by
    rw [List.length_cons]
    omega
  rw [hroute] at hseen hduring
  refine ⟨by simp [hseen], ⟨opening ++ calls, ?_, ?_, ?_, ?_⟩, hduring, fun failure hfailed => ?_⟩
  · rw [calleesOf_append, hpre, hcalls, List.map_append]
  · rw [hlisting]
    exact List.append_subset.mpr ⟨List.subset_append_of_subset_left _ hsubset,
      List.subset_append_of_subset_right _ hlisted⟩
  · rw [hlisting, List.filter_append, List.filter_append, hroutes, hterminals]
  · rw [List.filter_append, hrecoveries, hnone, List.append_nil]
  · obtain ⟨later, hlater, hunwinds⟩ := hback failure hfailed
    obtain ⟨closing, hclosing, hextended⟩ := hpost failure.exception later hunwinds
    refine ⟨later ++ closing, ?_, hextended⟩
    rw [calleesOf_append, hlater, hclosing, List.map_append]

/-- The route itself. -/
theorem Does.breaks {inner : Course E} (hbehind : ∀ h ∈ behind, h.Transparent)
    (haccepts : accepts event (Handler.on p callback)) (hbears : ctx.Bears event none)
    (hawaits : ctx.position.Awaits (index + 1) false)
    (hdoes : (Handler.on p callback).Does (Walks behind address (index + 1)) inner
      (address ++ [index]) ctx result seen) :
    ∃ outcome during back,
      Breaks event [] behind p callback address index result
        (.entered (address ++ [index]) :: (seen ++ [.left (address ++ [index])])) ctx outcome
        [.entered (address ++ [index])] during back := by
  cases hdoes with
  | @on _ _ _ _ outcome _ second hcall hrest =>
      obtain ⟨during, hruns, rfl⟩ := hcall.exists_runs
      refine ⟨outcome, during, second ++ [.left (address ++ [index])], by simp,
        ⟨[], rfl, by simp, by simp, rfl⟩, hruns, ?_⟩
      rintro failure rfl
      obtain ⟨calls, hcalls, hunwinds⟩ :=
        hrest.unwinds hbehind (hbears.withException failure) hawaits
      refine ⟨calls, ?_, ?_⟩
      · rw [calleesOf_append, hcalls]
        exact List.append_nil _
      · rw [List.nil_append, listing_cons_of_accepts haccepts rfl]
        exact hunwinds.cons_route rfl

/-- A walk of handlers that leave contexts as they are comes to each route that accepts the
event. -/
theorem Walks.breaks (hbefore : ∀ h ∈ before, h.Transparent)
    (hbehind : ∀ h ∈ behind, h.Transparent) (haccepts : accepts event (on p callback))
    (hbears : ctx.Bears event none) (hawaits : ctx.position.Awaits index false)
    (hwalk : Walks (before ++ on p callback :: behind) address index ctx result seen) :
    ∃ given outcome front during back,
      Breaks event before behind p callback address index result seen given outcome front during
        back := by
  induction before generalizing address index ctx result seen with
  | nil =>
      rcases hwalk.cons_bears hbears hawaits with ⟨hpassed, _⟩ | ⟨_, between, hdoes, rfl⟩
      · rw [haccepts] at hpassed
        cases hpassed
      · obtain ⟨outcome, during, back, hbreaks⟩ :=
          hdoes.breaks hbehind haccepts (hbears.select p index) (hawaits.select p)
        exact ⟨_, outcome, _, during, back, hbreaks⟩
  | cons h before ih =>
      have hhere := hbefore h List.mem_cons_self
      have hrest : ∀ later ∈ before, later.Transparent := fun later hlater =>
        hbefore later (.tail _ hlater)
      rcases hwalk.cons_bears hbears hawaits with ⟨hpassed, hlater⟩ | ⟨hgoes, between, hdoes, rfl⟩
      · have hlisting : listing (accepts event) (h :: before) address index =
            [] ++ listing (accepts event) before address (index + 1) :=
          listing_cons_of_not_accepts hpassed
        obtain ⟨given, outcome, front, during, back, hbreaks⟩ := ih hrest hbears hawaits.skip hlater
        refine ⟨given, outcome, [] ++ front, during, back ++ [],
          hbreaks.extend hlisting (List.Subset.refl []) rfl rfl rfl ?_ (by simp)⟩
        intro exception calls hunwinds
        rw [listing_cons_of_not_accepts hpassed]
        exact ⟨[], rfl, (List.append_nil calls).symm ▸ hunwinds⟩
      · have hlisting : listing (accepts event) (h :: before) address index =
            [(address ++ [index], h)] ++ listing (accepts event) before address (index + 1) :=
          listing_cons_of_accepts hgoes hhere.callback
        have hwholeListing :
            listing (accepts event) (h :: (before ++ on p callback :: behind)) address index =
              (address ++ [index], h) ::
                listing (accepts event) (before ++ on p callback :: behind) address (index + 1) :=
          listing_cons_of_accepts hgoes hhere.callback
        have hselected := hbears.select h.predicate index
        have hnext := hawaits.select h.predicate
        cases hterminal : h.isTerminal with
        | true =>
            cases h with
            | on q other =>
                obtain ⟨later, hlater, rfl⟩ := hdoes.on_transparent hhere
                obtain ⟨given, outcome, front, during, back, hbreaks⟩ :=
                  ih hrest hselected hnext hlater
                refine ⟨given, outcome,
                  [.entered (address ++ [index]), .called (address ++ [index]) (ctx.select q index),
                    .returned (address ++ [index]) (ctx.select q index)] ++ front, during,
                  back ++ [.left (address ++ [index])],
                  hbreaks.extend hlisting (List.Subset.refl _) rfl rfl rfl ?_
                    (by simp [predicate])⟩
                intro exception calls hunwinds
                rw [hwholeListing]
                exact ⟨[], rfl, (List.append_nil calls).symm ▸ hunwinds.cons_route rfl⟩
            | after | filter | recover | group => cases hterminal
        | false =>
            obtain ⟨attributes, middle, opening, later, closing, hwalked, rfl, hopening, hclosing,
              rfl⟩ := hdoes.of_transparent hhere hterminal
            obtain ⟨given, outcome, front, during, back, hbreaks⟩ :=
              ih hrest (hselected.withAttributes attributes) hnext hwalked
            have hcalled : calleesOf (.entered (address ++ [index]) :: opening) =
                (if h.opens then [(address ++ [index], h)] else []).map Prod.fst := by
              rw [apply_ite (List.map Prod.fst)]
              exact hopening
            refine ⟨given, outcome, .entered (address ++ [index]) :: opening ++ front, during,
              back ++ (closing ++ [.left (address ++ [index])]),
              hbreaks.extend hlisting ?_ ?_ ?_ hcalled ?_ (by simp)⟩
            · split <;> simp
            · split <;> simp [hterminal]
            · cases h <;> rfl
            · intro exception calls hunwinds
              rw [hwholeListing]
              refine ⟨_, ?_, hunwinds.cons_wrapper hterminal false⟩
              rw [calleesOf_append, hclosing]
              simp [apply_ite (List.map Prod.fst), Notice.call?]

end Breaks

end Walks

/-! ## Dispatches -/

/-- What the failure of the route at an address leads to. `live` are the handlers that can be
called, in pre-order, `front` and `back` are what is called before the route and after it, and
`left` is the exception that remains. -/
structure Unwound (live : List (Address × Handler E W)) (route : Address) (exception : Failure)
    (front back : List Address) (left : Option Failure) : Prop where
  /-- The routes in front of it have been called, in their order. -/
  routes_before : ∃ behind, addresses isTerminal live =
    front.filter (· ∈ addresses isTerminal live) ++ route :: behind
  /-- Nobody has taken care of a failure by then. -/
  recoveries_before : front.filter (· ∈ addresses isRecovery live) = []
  /-- No route is called any more. -/
  routes_after : back.filter (· ∈ addresses isTerminal live) = []
  /-- The takers of the exception are called, from the last towards the first. -/
  recoveries_after : back.filter (· ∈ addresses isRecovery live) =
    (takers exception live).map Prod.fst
  /-- The exception remains if no taker puts it away. -/
  left : left = if cleared exception live then none else some exception

section Unwound

variable {event : E} {exception : Failure} {before behind : List (Handler E W)} {p : Predicate E}
  {callback : Callback E W} {address : Address} {index : Nat}
  {front back : List (Address × Handler E W)} {result : Context E}

/-- In a chain without groups. -/
theorem Unwinds.unwound [Routable E] (haccepts : accepts event (on p callback))
    (hfront : front ⊆ listing (accepts event) before address index)
    (hterminals : front.filter (fun x => x.2.isTerminal) =
      (listing (accepts event) before address index).filter fun x => x.2.isTerminal)
    (hnone : front.filter (fun x => x.2.isRecovery) = [])
    (hunwinds : Unwinds event exception
      (listing (accepts event) (before ++ on p callback :: behind) address index) back result) :
    Unwound (listing (accepts event) (before ++ on p callback :: behind) address index)
      (address ++ [index + before.length]) exception (front.map Prod.fst) (back.map Prod.fst)
      result.exception := by
  have hlisted : front ⊆
      listing (accepts event) (before ++ on p callback :: behind) address index := by
    rw [listing_append]
    exact List.subset_append_of_subset_left _ hfront
  constructor
  · refine ⟨addresses isTerminal
      (listing (accepts event) behind address (index + before.length + 1)), ?_⟩
    rw [filter_callees hlisted, hterminals, listing_append, listing_cons_of_accepts haccepts rfl]
    simp [addresses, isTerminal]
  · rw [filter_callees hlisted, hnone]
    rfl
  · rw [filter_callees hunwinds.subset, hunwinds.routes]
    rfl
  · rw [filter_callees hunwinds.subset, hunwinds.recoveries]
  · exact hunwinds.result.exception

/-- A group around the chain makes no difference. -/
theorem Unwound.cons_group {live : List (Address × Handler E W)} {route : Address}
    {front back : List Address} {left : Option Failure} {q : Predicate E}
    {handlers : List (Handler E W)}
    (hunwound : Unwound live route exception front back left) :
    Unwound ((address, group q handlers) :: live) route exception front back left := by
  obtain ⟨hroutes, hnone, hclosed, htakers, hleft⟩ := hunwound
  have hsame : takers exception ((address, group q handlers) :: live) = takers exception live :=
    takers_cons.trans (List.append_nil _)
  refine ⟨hroutes, hnone, hclosed, ?_, hleft⟩
  rw [hsame]
  exact htakers

end Unwound

end Handler

namespace Dispatcher

open Handler

variable [Routable E] (d : Dispatcher E W) (monitor : Monitor E W) (event : E)
  (attributes : Attributes)

/-- When a route of a dispatcher without groups fails, the routes in front of it have been called
and those behind it are not. The handlers that take care of the failure are called from the last
towards the first, wherever they stand, up to one that puts it away. In between there is only what
the route itself does with the handlers behind it before it fails. -/
theorem failure_unwinds {before behind : List (Handler E W)} {p q : Predicate E}
    {callback : Callback E W}
    (hroot : d.root = .group q (before ++ .on p callback :: behind))
    (hbefore : ∀ h ∈ before, h.Transparent) (hbehind : ∀ h ∈ behind, h.Transparent)
    (hinside : q.accepts event) (haccepts : p.accepts event) (world : W) :
    ∃ given outcome front during back,
      d.notices monitor event attributes world =
          front ++ .called [0, before.length] given ::
            (during ++ .ended [0, before.length] given outcome :: back) ∧
        (callback given).Runs (Walks behind [0] (before.length + 1)) outcome during ∧
        ((callback given).ProceedsAtMost 0 → during = []) ∧
        ∀ failure, outcome = .error failure →
          Unwound (d.live event) [0, before.length] failure.exception (calleesOf front)
            (calleesOf back) (d.process monitor event attributes world).1.exception := by
  obtain ⟨seen, hwalk, hnotices⟩ := d.walks_notices monitor event attributes world
  have hlive : d.live event = ([0], d.root) ::
      listing (accepts event) (before ++ .on p callback :: behind) [0] 0 := by
    have hkeep : Handler.accepts event (.group q (before ++ .on p callback :: behind)) := hinside
    rw [live, hroot, listing_cons, if_pos hkeep, listing_nil, List.append_nil]
    rfl
  have hbears : (startContext event attributes).Bears event none := ⟨rfl, rfl, rfl⟩
  have hawaits : (startContext event attributes).position.Awaits 0 false :=
    ⟨rfl, Nat.le_refl 0, rfl⟩
  rw [hroot] at hwalk
  rcases hwalk.cons_bears hbears hawaits with ⟨hpassed, _⟩ | ⟨_, between, hdoes, rfl⟩
  · exact absurd hinside (by simpa [isTerminal, accepts, predicate] using hpassed)
  cases hdoes with
  | @group _ _ _ middle _ first second hinner hlater =>
      obtain ⟨hresult, rfl⟩ := walks_nil hlater
      have hexception : (d.process monitor event attributes world).1.exception =
          middle.exception := by
        rw [hresult]
        split <;> rfl
      obtain ⟨given, outcome, front, during, back, hbreaks⟩ :=
        Walks.breaks hbefore hbehind haccepts
          (show ((startContext event attributes).select q 0).enter.Bears event none from
            ⟨rfl, rfl, rfl⟩)
          ⟨rfl, Nat.le_refl 0, rfl⟩ hinner
      obtain ⟨hseen, ⟨calls, hcalls, hlisted, hterminals, hnone⟩, hruns, hback⟩ := hbreaks
      rw [Nat.zero_add] at hseen hruns
      refine ⟨given, outcome, .dispatching (Routable.path event) :: .entered [0] :: front, during,
        back ++ [.left [0]], ?_, hruns, hruns.seen_eq_nil, ?_⟩
      · rw [hnotices, hseen]
        simp
      · intro failure hfailed
        obtain ⟨later, hcallsBack, hunwinds⟩ := hback failure hfailed
        have hunwound := hunwinds.unwound haccepts hlisted hterminals hnone
        rw [Nat.zero_add, ← hcalls, ← hcallsBack, ← hexception] at hunwound
        have hopening : calleesOf (.dispatching (Routable.path event) :: .entered [0] :: front) =
            calleesOf front := rfl
        have hclosing : calleesOf (back ++ [.left [0]]) = calleesOf back := by
          rw [calleesOf_append]
          exact List.append_nil _
        rw [hlive, hroot, hopening, hclosing]
        exact hunwound.cons_group

/-- A route, wherever it stands. -/
def anyRoute : Handler TextEvent Unit := .on Predicate.any Plan.unchanged

/-- A handler that takes care of failures, of all of them or of a calm one. -/
def recovery (onlyCalm clears : Bool) : Handler TextEvent Unit :=
  .recover Predicate.any (fun failure => !onlyCalm || failure.message == "calm") Plan.unchanged
    clears

theorem transparent_recovery (onlyCalm clears : Bool) : (recovery onlyCalm clears).Transparent :=
  fun _ => rfl

/-- A route that fails among wrappers, handlers that take care of failures and other routes. -/
def failingAmongOthers : Dispatcher TextEvent Unit :=
  ⟨.group Predicate.any
    [recovery false false, recovery false true, .filter Predicate.any Plan.proceed, anyRoute,
      .on Predicate.any fun _ => .fail (.text "boom"),
      anyRoute, .after Predicate.any Plan.unchanged, recovery true true, recovery false false]⟩

/-- The failure is taken care of by the last handler and then by the second, which puts it away.
The route behind the failing one is not called for all that. -/
theorem failure_unwinds_failingAmongOthers :
    failingAmongOthers.called Monitor.silent ⟨"/"⟩ Attributes.empty () =
        [[0, 2], [0, 3], [0, 4], [0, 8], [0, 6], [0, 1]] ∧
      ∃ given front back,
        failingAmongOthers.notices Monitor.silent ⟨"/"⟩ Attributes.empty () =
            front ++ .called [0, 4] given :: .failed [0, 4] given (.text "boom") :: back ∧
          Unwound (failingAmongOthers.live ⟨"/"⟩) [0, 4] (Failure.text "boom").exception
            (calleesOf front) (calleesOf back) none := by
  refine ⟨by decide, ?_⟩
  have hbefore : ∀ h ∈ [recovery false false, recovery false true,
      .filter Predicate.any Plan.proceed, anyRoute], h.Transparent := by
    simp only [List.forall_mem_cons, transparent_recovery]
    exact ⟨trivial, trivial, fun ctx => ⟨⟨ctx.attributes, rfl⟩, fun _ => rfl⟩, fun _ => rfl, nofun⟩
  have hbehind : ∀ h ∈ [anyRoute, .after Predicate.any Plan.unchanged, recovery true true,
      recovery false false], h.Transparent := by
    simp only [List.forall_mem_cons, transparent_recovery]
    exact ⟨fun _ => rfl, fun _ => rfl, trivial, trivial, nofun⟩
  obtain ⟨given, outcome, front, during, back, hnotices, hruns, hnever, hunwound⟩ :=
    failingAmongOthers.failure_unwinds Monitor.silent ⟨"/"⟩ Attributes.empty
      (q := Predicate.any) rfl hbefore hbehind rfl rfl ()
  obtain rfl := hnever trivial
  cases hruns
  exact ⟨given, front, back, hnotices, hunwound _ rfl⟩

/-- A route that runs the rest of the chain before it fails, and a route behind it. -/
def hasty : Dispatcher TextEvent Unit :=
  ⟨.group Predicate.any
    [.on Predicate.any fun ctx => .next ctx fun _ => .fail (.text "boom"), anyRoute]⟩

/-- A route that fails can have called a route behind it that leaves contexts as they are. -/
theorem hasty_calls_route_behind :
    anyRoute.Transparent ∧
      hasty.called Monitor.silent ⟨"/"⟩ Attributes.empty () = [[0, 0], [0, 1]] ∧
      (∃ given, .failed [0, 0] given (.text "boom") ∈
        hasty.notices Monitor.silent ⟨"/"⟩ Attributes.empty ()) ∧
      (hasty.process Monitor.silent ⟨"/"⟩ Attributes.empty ()).1.exception =
        some (Failure.text "boom").exception :=
  ⟨fun _ => rfl, by decide,
    ⟨_, .tail _ <| .tail _ <| .tail _ <| .tail _ <| .tail _ <| .tail _ <| .tail _ <| .tail _ <|
      .head _⟩, rfl⟩

end Dispatcher

end RequestRouting
