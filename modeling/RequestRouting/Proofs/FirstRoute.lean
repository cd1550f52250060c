import RequestRouting.Proofs.Plain
import RequestRouting.Proofs.Reached
import RequestRouting.Proofs.SingleUse
import RequestRouting.TextEvent

/-!
# The first route that answers wins

Where callbacks do no more than their part, a dispatch calls the handlers in the order of
their tour, until a route answers. That ends the chain of the route. The chains around it
go on, but only with the handlers that wrap others: what has been answered is not answered
again.

The flags of a context tell three kinds of walks apart. A context that is not answered
calls every handler up to a route that answers (`Walks.unanswered`), one that has been
answered in its chain calls none (`Walks.closed`), and one that had been answered when its
chain took over calls all handlers but the routes (`Walks.resumed`).
-/

namespace RequestRouting

open Address

variable {E W : Type}

namespace Handler

/-! ## Walks -/

section Walks

variable [Routable E] {event : E} {handlers : List (Handler E W)} {address : Address}
  {index : Nat} {ctx result : Context E} {seen : List (Notice E)}

/-- Whether a handler is under a predicate that accepts the event. -/
def accepts (event : E) (h : Handler E W) : Bool := h.predicate.accepts event

/-- A calm context goes on to the next handler or goes into it. -/
theorem Walks.cons_calm {handled resumed : Bool} {h : Handler E W} {rest : List (Handler E W)}
    (hwalk : Walks (h :: rest) address index ctx result seen) (hcalm : ctx.Calm event handled)
    (hawaits : ctx.position.Awaits index resumed) :
    (((!handled || (resumed && !h.isTerminal)) && accepts event h) = false ∧
        Walks rest address (index + 1) ctx result seen) ∨
      (((!handled || (resumed && !h.isTerminal)) && accepts event h) = true ∧
        ∃ between, h.Does (Walks rest address (index + 1))
            (Walks h.inside (address ++ [index]) 0) (address ++ [index])
            (ctx.select h.predicate index) result between ∧
          seen = .entered (address ++ [index]) ::
            (between ++ [.left (address ++ [index])])) := by
  have hgoes := hcalm.goesInto hawaits h
  rcases walks_cons hwalk with ⟨hdetached, _⟩ | ⟨_, hpast, hlater⟩ | ⟨_, hinto, hdoes⟩
  · rw [hawaits.attached] at hdetached
    cases hdetached
  · exact .inl ⟨hgoes.symm.trans hpast, hlater⟩
  · exact .inr ⟨hgoes.symm.trans hinto, hdoes⟩

/-- Once a request is answered, its chain is over. -/
theorem Walks.closed (hcalm : ctx.Calm event true) (hawaits : ctx.position.Awaits index false)
    (hwalk : Walks handlers address index ctx result seen) :
    seen = [] ∧ result.Calm event true := by
  induction handlers generalizing index with
  | nil =>
      obtain ⟨rfl, rfl⟩ := walks_nil hwalk
      rw [if_pos hawaits.attached]
      exact ⟨rfl, hcalm.event, hcalm.exception, hcalm.handled⟩
  | cons h rest ih =>
      rcases hwalk.cons_calm hcalm hawaits with ⟨_, hlater⟩ | ⟨hgoes, _⟩
      · exact ih hawaits.skip hlater
      · simp at hgoes

/-- A context that had been answered when its chain took over calls all handlers but the
routes. -/
theorem Walks.resumed (hplain : Throughout (fun h _ => h.Plain) handlers)
    (hcalm : ctx.Calm event true) (hawaits : ctx.position.Awaits index true)
    (hwalk : Walks handlers address index ctx result seen) :
    calleesOf seen =
        ((tour (accepts event) handlers address index).filter fun x => !x.2.isTerminal).map
          Prod.fst ∧
      result.Calm event true := by
  induction handlers using chainInduction generalizing address index ctx result seen with
  | nil =>
      obtain ⟨rfl, rfl⟩ := walks_nil hwalk
      rw [if_pos hawaits.attached]
      exact ⟨by simp, hcalm.event, hcalm.exception, hcalm.handled⟩
  | cons h rest ihInside ihRest =>
      obtain ⟨hplainHere, hplainInside, hplainRest⟩ := throughout_cons.mp hplain
      rcases hwalk.cons_calm hcalm hawaits with ⟨hgoes, hlater⟩ | ⟨hgoes, between, hdoes, rfl⟩
      · obtain ⟨hcalls, hresult⟩ := ihRest hplainRest hcalm hawaits.skip hlater
        refine ⟨?_, hresult⟩
        rw [tour_cons]
        by_cases haccepts : accepts event h
        · -- Only a route is passed over.
          cases h with
          | on => simpa [haccepts, inside, opens, closes, isTerminal] using hcalls
          | after | filter | recover | group => simp [haccepts, isTerminal] at hgoes
        · rw [if_neg haccepts]
          exact hcalls
      · have haccepts : accepts event h = true := (Bool.and_eq_true_iff.mp hgoes).2
        have hterminal : h.isTerminal = false := by
          simpa [haccepts] using hgoes
        have hselected := hcalm.select h.predicate index
        have hnext := hawaits.select h.predicate
        by_cases hcallback : h.callback?.isSome
        · rw [map_filter_tour_cons haccepts hcallback (by simp [hterminal])]
          have hwrapper := hdoes.wrapper hplainHere hterminal hcallback hselected <| by
            intro start back first hstart hposition hfirst _
            rw [← hposition] at hnext
            exact ihRest hplainRest hstart hnext hfirst
          rw [calleesOf_bracket]
          exact hwrapper
        · cases hdoes with
          | @group p _ _ middle _ first second hinner hlater =>
              obtain ⟨hfirst, hmiddle⟩ := ihInside hplainInside hselected.enter
                (Position.awaits_enter hselected) hinner
              obtain ⟨hsecond, hresult⟩ :=
                ihRest hplainRest (hmiddle.leave _) (hnext.leave hmiddle) hlater
              refine ⟨?_, hresult⟩
              rw [calleesOf_bracket, calleesOf_append, hfirst, hsecond]
              exact (map_filter_tour_group haccepts).symm
          | on | after | filter | failedFilter | passed | recovered => exact absurd rfl hcallback

/-! ### Up to a route that answers -/

/-- Whether the walk through a chain calls the handlers in the order of their tour, up to a
route that answers, and ends with an answer if there is one. -/
def UpToAnswer (event : E) (answers : Address → Bool) (handlers : List (Handler E W))
    (address : Address) (index : Nat) (result : Context E) (seen : List (Notice E)) : Prop :=
  calleesOf seen =
      ((tour (accepts event) handlers address index).filter
        (reached ((routes (accepts event) handlers address index).find? answers))).map Prod.fst ∧
    result.Calm event ((routes (accepts event) handlers address index).find? answers).isSome

/-- Whether `answers` tells of the routes of a chain which of them answer in a run. -/
def TellsAnswers (event : E) (answers : Address → Bool) (handlers : List (Handler E W))
    (address : Address) (index : Nat) (seen : List (Notice E)) : Prop :=
  ∀ a ∈ routes (accepts event) handlers address index, ∀ returned,
    .returned a returned ∈ seen → answers a = returned.handled

section UpToAnswer

variable {answers : Address → Bool} {h : Handler E W} {rest inner : List (Handler E W)}
  {p : Predicate E} {later between : List (Notice E)}

theorem TellsAnswers.behind (htells : TellsAnswers event answers (h :: rest) address index seen)
    (hsubset : later ⊆ seen) :
    TellsAnswers event answers rest address (index + 1) later := by
  intro a ha returned hreturned
  apply htells a ?_ returned (hsubset hreturned)
  rw [routes_cons]
  split <;> simp [ha]

theorem TellsAnswers.group
    (htells : TellsAnswers event answers (group p inner :: rest) address index seen)
    (haccepts : accepts event (group p inner : Handler E W)) (hsubset : later ⊆ seen) :
    TellsAnswers event answers inner (address ++ [index]) 0 later := by
  intro a ha returned hreturned
  apply htells a ?_ returned (hsubset hreturned)
  rw [routes_cons, if_pos haccepts]
  simp [inside, ha]

theorem within_of_find?_routes {route : Address}
    (hfound : (routes (accepts event) handlers address index).find? answers = some route) :
    Within address index route :=
  within_of_mem_routes (List.mem_of_find?_eq_some hfound)

/-- A route answers, which ends its chain, or leaves the answer to the rest of it. -/
theorem upToAnswer_on {callback : Callback E W} {course : Course E}
    (hdoes : (on p callback).Does (Walks rest address (index + 1)) course
      (address ++ [index]) ctx result between)
    (hplain : (on p callback).Plain) (haccepts : accepts event (on p callback))
    (hcalm : ctx.Calm event false)
    (hawaits : ctx.position.Awaits (index + 1) false)
    (htells : TellsAnswers event answers (on p callback :: rest) address index between)
    (hrest : ∀ {later}, Walks rest address (index + 1) ctx result later → later ⊆ between →
      UpToAnswer event answers rest address (index + 1) result later) :
    UpToAnswer event answers (on p callback :: rest) address index result between := by
  have hroutes : routes (accepts event) (on p callback :: rest) address index =
      (address ++ [index]) :: routes (accepts event) rest address (index + 1) := by
    rw [routes_cons, if_pos haccepts]
    simp [isTerminal, inside]
  obtain ⟨middle, later, hmiddle, hlater, rfl⟩ := hdoes.on_plain hplain
  have hhere : answers (address ++ [index]) = middle.handled :=
    htells _ (by simp [hroutes]) _ (by simp)
  rw [UpToAnswer, hroutes]
  rcases hmiddle with rfl | rfl
  · rw [hcalm.handled] at hhere
    obtain ⟨hcalls, hresult⟩ := hrest hlater (by simp)
    rw [List.find?_cons_of_neg (by simp [hhere])]
    refine ⟨?_, hresult⟩
    rw [map_filter_tour_cons haccepts rfl (reached_self fun _ => within_of_find?_routes),
      calleesOf_call, hcalls]
    simp [opens, closes]
  · obtain ⟨rfl, hresult⟩ := hlater.closed hcalm.answer hawaits
    have hnone : (tour (accepts event) rest address (index + 1)).filter
        (reached (some (address ++ [index]))) = [] := by
      rw [List.filter_eq_nil_iff]
      intro x hx
      simp [reached_behind (within_of_mem_tour hx)]
    rw [List.find?_cons_of_pos hhere]
    refine ⟨?_, hresult⟩
    rw [map_filter_tour_cons haccepts rfl (by simp [reached, isTerminal]), calleesOf_call, hnone]
    simp [opens, closes]

/-- An answer inside a group lets the chain behind the group go on without its routes. -/
theorem upToAnswer_group
    (hdoes : (group p inner).Does (Walks rest address (index + 1))
      (Walks inner (address ++ [index]) 0) (address ++ [index]) ctx result between)
    (hplain : Throughout (fun h _ => h.Plain) rest)
    (haccepts : accepts event (group p inner : Handler E W))
    (hawaits : ctx.position.Awaits (index + 1) false)
    (hinner : ∀ {middle first}, Walks inner (address ++ [index]) 0 ctx.enter middle first →
      first ⊆ between → UpToAnswer event answers inner (address ++ [index]) 0 middle first)
    (hrest : ∀ {start later}, start.Calm event false → start.position.Awaits (index + 1) false →
      Walks rest address (index + 1) start result later → later ⊆ between →
      UpToAnswer event answers rest address (index + 1) result later) :
    UpToAnswer event answers (group p inner :: rest) address index result between := by
  have hroutes : routes (accepts event) (group p inner :: rest) address index =
      routes (accepts event) inner (address ++ [index]) 0 ++
        routes (accepts event) rest address (index + 1) := by
    rw [routes_cons, if_pos haccepts]
    simp [isTerminal, inside]
  rw [UpToAnswer, hroutes, map_filter_tour_group haccepts, List.find?_append]
  cases hdoes with
  | @group _ _ _ middle _ first second hfirst hsecond =>
      obtain ⟨hfirstCalls, hmiddle⟩ := hinner hfirst (by simp)
      rw [calleesOf_append, hfirstCalls]
      cases hfound : (routes (accepts event) inner (address ++ [index]) 0).find? answers with
      | none =>
          rw [hfound] at hmiddle
          obtain ⟨hsecondCalls, hresult⟩ :=
            hrest (hmiddle.leave _) (hawaits.leave hmiddle) hsecond (by simp)
          rw [hsecondCalls, Option.none_or]
          refine ⟨?_, hresult⟩
          congr 2
          apply List.filter_congr
          intro x hx
          rw [reached_inside (fun _ => within_of_find?_routes) (within_of_mem_tour hx),
            reached_none]
      | some route =>
          rw [hfound] at hmiddle
          obtain ⟨hsecondCalls, hresult⟩ := hsecond.resumed hplain (hmiddle.leave _)
            (hawaits.leave hmiddle)
          rw [hsecondCalls, Option.some_or]
          refine ⟨?_, hresult⟩
          congr 2
          apply List.filter_congr
          intro x hx
          exact (reached_later (within_of_find?_routes hfound) (within_of_mem_tour hx)).symm

end UpToAnswer

/-- A context that is not answered calls the handlers in the order of their tour, up to a
route that answers. -/
theorem Walks.unanswered (answers : Address → Bool)
    (hplain : Throughout (fun h _ => h.Plain) handlers) (hcalm : ctx.Calm event false)
    (hawaits : ctx.position.Awaits index false)
    (hwalk : Walks handlers address index ctx result seen)
    (htells : TellsAnswers event answers handlers address index seen) :
    UpToAnswer event answers handlers address index result seen := by
  induction handlers using chainInduction generalizing address index ctx result seen with
  | nil =>
      obtain ⟨rfl, rfl⟩ := walks_nil hwalk
      rw [if_pos hawaits.attached, UpToAnswer, routes_nil]
      exact ⟨by simp, hcalm.event, hcalm.exception, hcalm.handled⟩
  | cons h rest ihInside ihRest =>
      obtain ⟨hplainHere, hplainInside, hplainRest⟩ := throughout_cons.mp hplain
      rcases hwalk.cons_calm hcalm hawaits with ⟨hgoes, hlater⟩ | ⟨hgoes, between, hdoes, rfl⟩
      · have haccepts : ¬ accepts event h = true := by
          simpa using hgoes
        rw [UpToAnswer, tour_cons, if_neg haccepts, routes_cons, if_neg haccepts]
        exact ihRest hplainRest hcalm hawaits.skip hlater (htells.behind fun _ => id)
      · have haccepts : accepts event h = true := (Bool.and_eq_true_iff.mp hgoes).2
        have hselected := hcalm.select h.predicate index
        have hnext := hawaits.select h.predicate
        have hbetween : between ⊆ .entered (address ++ [index]) ::
            (between ++ [.left (address ++ [index])]) := by simp
        rw [UpToAnswer, calleesOf_bracket]
        cases h with
        | on p callback =>
            apply upToAnswer_on hdoes hplainHere haccepts hselected hnext fun a ha returned hmem =>
              htells a ha returned (hbetween hmem)
            intro later hlater hsubset
            exact ihRest hplainRest hselected hnext hlater
              (htells.behind fun _ hmem => hbetween (hsubset hmem))
        | group p handlers =>
            apply upToAnswer_group hdoes hplainRest haccepts hnext
            · intro middle first hfirst hsubset
              exact ihInside hplainInside hselected.enter (Position.awaits_enter hselected) hfirst
                (htells.group haccepts fun _ hmem => hbetween (hsubset hmem))
            · intro start later hstart hposition hlater hsubset
              exact ihRest hplainRest hstart hposition hlater
                (htells.behind fun _ hmem => hbetween (hsubset hmem))
        | after | filter | recover =>
            rw [routes_cons, if_pos haccepts]
            simp only [isTerminal, inside, routes_nil, Bool.false_eq_true, if_false,
              List.nil_append]
            rw [map_filter_tour_cons haccepts rfl (reached_self fun _ => within_of_find?_routes)]
            apply hdoes.wrapper hplainHere rfl rfl hselected
            intro start back first hstart hposition hfirst hsubset
            rw [← hposition] at hnext
            exact ihRest hplainRest hstart hnext hfirst
              (htells.behind fun _ hmem => hbetween (hsubset hmem))

end Walks

end Handler

namespace Dispatcher

open Handler

variable [Routable E] (d : Dispatcher E W) (monitor : Monitor E W) (event : E)
  (attributes : Attributes)

/-- The handlers whose callbacks a dispatch calls, in this order. -/
def called (world : W) : List Address :=
  calleesOf (d.notices monitor event attributes world)

/-- Whether a call of the callback at an address has answered the request. -/
def answered (world : W) (a : Address) : Bool :=
  (d.notices monitor event attributes world).any fun
    | .returned address ctx => address == a && ctx.handled
    | _ => false

/-- The handlers that an event leads to, in pre-order: those under a predicate that accepts
it, inside groups that do. -/
def live : List (Address × Handler E W) := listing (accepts event) [d.root] [] 0

theorem eq_of_countP_le_one {α : Type} {p : α → Bool} {x y : α} {listed : List α}
    (hcount : listed.countP p ≤ 1) (hx : x ∈ listed) (hy : y ∈ listed) (hpx : p x) (hpy : p y) :
    x = y := by
  have hxkept := List.mem_filter.mpr ⟨hx, hpx⟩
  have hykept := List.mem_filter.mpr ⟨hy, hpy⟩
  rw [List.countP_eq_length_filter] at hcount
  match hkept : listed.filter p with
  | [] =>
      rw [hkept] at hxkept
      cases hxkept
  | [z] =>
      rw [hkept, List.mem_singleton] at hxkept hykept
      rw [hxkept, hykept]
  | _ :: _ :: _ =>
      rw [hkept] at hcount
      simp at hcount

/-- A route is called at most once, so its answer is the one with which its callback comes
back. -/
theorem answered_eq_handled (hplain : Throughout (fun h _ => h.Plain) [d.root]) (world : W)
    {a : Address} {returned : Context E} (hroute : a ∈ routes (accepts event) [d.root] [] 0)
    (hreturned : .returned a returned ∈ d.notices monitor event attributes world) :
    d.answered monitor event attributes world a = returned.handled := by
  obtain ⟨⟨a, listed⟩, hlisted, rfl⟩ := List.mem_map.mp hroute
  obtain ⟨hmem, hterminal⟩ := List.mem_filter.mp hlisted
  have honce := d.countP_notices_le_one monitor event attributes
    (Notice.oncePerCall_isReturnOf a) (hplain.mono fun h rest hplain => hplain.proceedsSafely rest)
    (mem_listing_all hmem) hterminal world
  cases hhandled : returned.handled with
  | true =>
      rw [answered, List.any_eq_true]
      exact ⟨_, hreturned, by simp [hhandled]⟩
  | false =>
      rw [answered, List.any_eq_false]
      intro notice hnotice hanswers
      split at hanswers
      · obtain ⟨haddress, hother⟩ := Bool.and_eq_true_iff.mp hanswers
        have hsame := eq_of_countP_le_one honce hnotice hreturned haddress <| by
          simp [Notice.isReturnOf]
        cases hsame
        rw [hhandled] at hother
        cases hother
      · cases hanswers

/-- In a dispatch where callbacks do no more than their part, the first route that answers
wins. -/
theorem first_route_wins (hplain : Throughout (fun h _ => h.Plain) [d.root]) (world : W) :
    FirstRouteWins (d.live event) (d.answered monitor event attributes world)
      (d.called monitor event attributes world) := by
  obtain ⟨seen, hwalk, hnotices⟩ := d.walks_notices monitor event attributes world
  have hcalm : (startContext event attributes).Calm event false := ⟨rfl, rfl, rfl⟩
  have hawaits : (startContext event attributes).position.Awaits 0 false :=
    ⟨rfl, Nat.le_refl 0, rfl⟩
  have hcalled : d.called monitor event attributes world = calleesOf seen := by
    rw [called, hnotices]
    rfl
  obtain ⟨hcalls, _⟩ := hwalk.unanswered (d.answered monitor event attributes world) hplain
    hcalm hawaits <| by
      intro a hroute returned hreturned
      apply d.answered_eq_handled monitor event attributes hplain world hroute
      rw [hnotices]
      exact List.mem_cons_of_mem _ hreturned
  rw [hcalled, hcalls]
  exact firstRouteWins_of_tour _

/-- A filter, a group with a route that answers and a handler that is called last, another
route that answers, and another handler that is called last. -/
def twoAnswers : Dispatcher TextEvent Unit :=
  let answer : Handler TextEvent Unit := .on Predicate.any fun ctx => .done (ctx.withHandled true)
  let last : Handler TextEvent Unit := .after Predicate.any Plan.unchanged
  ⟨.group Predicate.any
    [.filter Predicate.any Plan.proceed, .group Predicate.any [answer, last], answer, last]⟩

/-- The group is left when its route answers. The other route and the last handler of the
group are not called, the last handler behind the group is. -/
theorem first_route_wins_twoAnswers :
    twoAnswers.called Monitor.silent ⟨"/"⟩ Attributes.empty () = [[0, 0], [0, 1, 0], [0, 3]] ∧
      FirstRouteWins (twoAnswers.live ⟨"/"⟩)
        (twoAnswers.answered Monitor.silent ⟨"/"⟩ Attributes.empty ())
        (twoAnswers.called Monitor.silent ⟨"/"⟩ Attributes.empty ()) := by
  have hplain : Throughout (fun h _ => h.Plain) [twoAnswers.root] := by
    simp [twoAnswers, throughout_cons, inside, Plain, Plan.Returns, Plan.Wraps, Plan.proceed,
      Plan.unchanged]
    exact fun ctx => ⟨ctx.attributes, rfl⟩
  exact ⟨by decide,
    twoAnswers.first_route_wins Monitor.silent ⟨"/"⟩ Attributes.empty hplain ()⟩

end Dispatcher

end RequestRouting
