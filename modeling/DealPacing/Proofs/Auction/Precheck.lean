import DealPacing.Proofs.Auction.Sources
import DealPacing.Proofs.Registry.Succession

/-!
# Asking for deals before matching

Before an auction is matched it can be asked whether its account has deals at all. The question
looks at the windows of the active plans, while matching looks at their tokens and at the next
serve. A plan that is over keeps its tokens until the line item moves on, so that it is still
matched when the account has no deals any more. Apart from such plans the question can be relied
on: what is matched belongs to the account and has a plan with serves left, and right after all line
items have moved on every such plan covers the instant.

## Main definitions

* `LineItem.Serves`: pacing lets a serve of the active plan through

## Main results

* `Registry.Keyed.serves_of_mem_offered`: what is matched has serves left, and is due
* `Registry.hasDeals_of_mem`: an active plan that covers the instant is a deal of the account
* `Engine.hasDeals_of_offered`: when the account of a matched line item has deals
* `Engine.not_forall_hasDeals`: a plan that is over, and an account with blanks around it
-/

namespace DealPacing

/-- The active plan of the line item has a serve left, and the next serve is due. -/
structure LineItem.Serves (x : LineItem) (s : Spending) (now : Instant) : Prop where
  unspent : ∃ p, x.plan = some p ∧ ∃ t ∈ p.tokens, t.spent s < t.total
  due : ∃ t, x.readyAt = some t ∧ t ≤ now

namespace LineItem

variable {x : LineItem} {ctx : AuctionContext} {s : Spending} {now : Instant}

/-- What pacing does not hold back serves, as a line item without a plan is never due. -/
theorem serves_of_not_isHeldBack (hpacing : ctx.ignorePacing = false) (hdormant : x.Dormant)
    (h : ¬ x.IsHeldBack ctx s now) : x.Serves s now := by
  have hboth : ¬ x.IsExhausted s ∧ ¬ x.IsAhead now :=
    not_or.mp fun hor => h ⟨hpacing, hor⟩
  have hdue : ∃ t, x.readyAt = some t ∧ t ≤ now := by
    have hahead := hboth.2
    unfold IsAhead at hahead
    push Not at hahead
    obtain ⟨t, ht, hlt⟩ := hahead
    exact ⟨t, ht, Int.not_lt.mp hlt⟩
  refine ⟨?_, hdue⟩
  obtain ⟨t, ht, -⟩ := hdue
  rcases hp : x.plan with _ | p
  · -- there is no plan, and so no next serve
    rw [hdormant hp] at ht
    cases ht
  · refine ⟨p, rfl, ?_⟩
    have hexhausted := hboth.1
    unfold IsExhausted at hexhausted
    push Not at hexhausted
    exact hexhausted p hp

end LineItem

namespace Registry

variable {settings : MatchSettings} {r : Registry} {s : Spending} {ctx : AuctionContext}
  {imp : Impression} {bidder : Option String} {now : Instant} {x : LineItem}

/-- What is matched is registered, belongs to the account, has serves left, and is due. -/
theorem Keyed.serves_of_mem_offered (h : r.Keyed) (hdormant : r.All LineItem.Dormant)
    (hpacing : ctx.ignorePacing = false)
    (hx : x ∈ (r.findMatching settings s ctx imp bidder now).offered) :
    x ∈ r.toList ∧ Text.trim ctx.accountId ≠ "" ∧ x.accountId = Text.trim ctx.accountId ∧
      x.Serves s now := by
  obtain ⟨hcandidate, -, -, -, hpaced⟩ :=
    (mem_readyFor _ _ _ _ _ _ _).mp (h.mem_readyFor_of_mem_offered hx)
  obtain ⟨hmem, hne, haccount⟩ := (mem_candidates r ctx).mp hcandidate
  exact ⟨hmem, hne, haccount,
    LineItem.serves_of_not_isHeldBack hpacing (hdormant.of_mem_toList hmem) hpaced⟩

/-- A line item with an active plan that covers the instant is a deal of its account. -/
theorem hasDeals_of_mem {accountId : String} (hx : x ∈ r.toList) (hne : accountId ≠ "")
    (haccount : x.accountId = accountId) (hactive : x.isActiveAt now = true) :
    r.hasDeals accountId now = true := by
  have hany : (r.toList.any fun y => y.accountId == accountId && y.isActiveAt now) = true :=
    List.any_eq_true.mpr ⟨x, hx, by simp [haccount, hactive]⟩
  have hnonempty : accountId.isEmpty = false := by simpa using hne
  rw [hasDeals, hnonempty, hany]
  rfl

end Registry

namespace Engine

/-- **When the question for deals can be relied on.** In every engine that a run leads to, and
however line items of equal rank are arranged, a line item that is matched under pacing belongs to
the account, without the blanks around its name, has an active plan with serves left, and is due. If
the plan covers the instant, then the account has deals at that instant. So the account has deals
whenever anything is matched right after the line items have moved on. -/
theorem hasDeals_of_offered (c : Config) (start : Instant) (moves : List Move)
    (settings : MatchSettings) (ctx : AuctionContext) (imp : Impression) (bidder : Option String)
    (now : Instant) (hpacing : ctx.ignorePacing = false) :
    let e := { run c start moves with settings }
    let advanced := (e.advance now).1
    let accountId := Text.trim ctx.accountId
    (∀ x ∈ (e.findMatching ctx imp bidder now).offered,
      x.accountId = accountId ∧ x.Serves e.spending now ∧
        (x.isActiveAt now = true → e.registry.hasDeals accountId now = true)) ∧
    ((advanced.findMatching ctx imp bidder now).offered ≠ [] →
      advanced.registry.hasDeals accountId now = true) := by
  intro e advanced accountId
  have hall (moves : List Move) : (run c start moves).registry.All LineItem.Dormant :=
    all_run LineItem.lasting_dormant c start fun m _ => m.brings_true
  have hoffered (moves : List Move) {x : LineItem} (hx : x ∈
      (({ run c start moves with settings } : Engine).findMatching ctx imp bidder now).offered) :
      x ∈ (run c start moves).registry.toList ∧ accountId ≠ "" ∧ x.accountId = accountId ∧
        x.Serves (run c start moves).spending now := by
    obtain ⟨label, howned⟩ := sound_run c start moves
    exact howned.keyed.serves_of_mem_offered (hall moves) hpacing hx
  refine ⟨fun x hx => ?_, fun hne => ?_⟩
  · obtain ⟨hmem, hnonempty, haccount, hserves⟩ := hoffered moves hx
    exact ⟨haccount, hserves, Registry.hasDeals_of_mem hmem hnonempty haccount⟩
  · -- to move on is a move, after which every active plan covers the instant
    have hmoved : advanced = { run c start (moves ++ [.advance now]) with settings } := by
      rw [run_concat]
      rfl
    obtain ⟨x, hx⟩ := List.exists_mem_of_ne_nil _ hne
    rw [hmoved] at hx ⊢
    obtain ⟨hmem, hnonempty, haccount, ⟨p, hp, -⟩, -⟩ := hoffered _ hx
    have hsettled : x.Settled now := by
      rw [run_concat] at hmem
      exact (all_settled_advance c start now moves).of_mem_toList hmem
    refine Registry.hasDeals_of_mem hmem hnonempty haccount ?_
    rw [LineItem.isActiveAt_of_some hp]
    exact hsettled.covers hp

/-- An engine with one line item, of two plans and with targeting that holds always. -/
def oneDeal : List Move :=
  [.update [{ twoHours [⟨1, 5⟩] [⟨1, 5⟩] (hour 0) with
    targeting := some (.obj [("$and", .arr [])]) }] true (hour 0)]

/-- A line item is matched within its first hour, and has deals then. -/
theorem hasDeals_of_offered_oneDeal :
    let ctx : AuctionContext := ⟨default, "account", some [], false, .empty⟩
    let e := run {} (hour 0) oneDeal
    ctx.ignorePacing = false ∧
      ((e.findMatching ctx default (some "bidder") (hour 0)).offered.map (·.id)) = ["lineItem"] ∧
      (e.registry.hasDeals "account" (hour 0) = true) := by
  intro ctx e
  have hoffered : ((e.findMatching ctx default (some "bidder") (hour 0)).offered.map (·.id)) =
      ["lineItem"] := by decide +kernel
  have hactive : ((e.findMatching ctx default (some "bidder") (hour 0)).offered.all
      (·.isActiveAt (hour 0))) = true := by decide +kernel
  obtain ⟨x, hx⟩ : ∃ x, x ∈ (e.findMatching ctx default (some "bidder") (hour 0)).offered := by
    refine List.exists_mem_of_ne_nil _ fun hnil => ?_
    rw [hnil] at hoffered
    cases hoffered
  obtain ⟨hmatched, -⟩ :=
    hasDeals_of_offered {} (hour 0) oneDeal e.settings ctx default (some "bidder") (hour 0) rfl
  have htrim : Text.trim ctx.accountId = "account" := by decide +kernel
  obtain ⟨-, -, hdeals⟩ := hmatched x hx
  rw [htrim] at hdeals
  exact ⟨rfl, hoffered, hdeals (List.all_eq_true.mp hactive x hx)⟩

/-- **The question for deals cannot be relied on in two cases**: when a matched line item was not
moved on yet from a plan that is over, and when there are blanks around the account. -/
theorem not_forall_hasDeals :
    (¬ ∀ (c : Config) (start : Instant) (moves : List Move) (ctx : AuctionContext)
      (imp : Impression) (bidder : Option String) (now : Instant), ctx.ignorePacing = false →
      Text.trim ctx.accountId = ctx.accountId →
      ((run c start moves).findMatching ctx imp bidder now).offered ≠ [] →
        (run c start moves).registry.hasDeals ctx.accountId now = true) ∧
    ¬ ∀ (c : Config) (start : Instant) (moves : List Move) (ctx : AuctionContext)
      (imp : Impression) (bidder : Option String) (now : Instant), ctx.ignorePacing = false →
      (∀ x ∈ ((run c start moves).findMatching ctx imp bidder now).offered,
        x.isActiveAt now = true) →
      ((run c start moves).findMatching ctx imp bidder now).offered ≠ [] →
        (run c start moves).registry.hasDeals ctx.accountId now = true := by
  constructor
  · -- the first hour is over, and the line item did not move on to its second plan
    intro h
    have hdeals := h {} (hour 0) oneDeal ⟨default, "account", some [], false, .empty⟩ default
      (some "bidder") (hour 1) rfl (by decide +kernel)
      (fun hnil => absurd (congrArg List.length hnil) (by decide +kernel))
    revert hdeals
    decide +kernel
  · intro h
    have hdeals := h {} (hour 0) oneDeal ⟨default, " account", some [], false, .empty⟩ default
      (some "bidder") (hour 0) rfl (List.all_eq_true.mp (by decide +kernel))
      (fun hnil => absurd (congrArg List.length hnil) (by decide +kernel))
    revert hdeals
    decide +kernel

end Engine

end DealPacing
