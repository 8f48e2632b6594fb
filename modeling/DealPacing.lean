import DealPacing.Engine
import DealPacing.Json.Printer
import DealPacing.Proofs.Delivery.Plans
import DealPacing.Proofs.Delivery.Histories
import DealPacing.Proofs.Delivery.Allotments
import DealPacing.Proofs.Delivery.Readiness
import DealPacing.Proofs.Delivery.Revisions
import DealPacing.Proofs.Progress.Copies
import DealPacing.Proofs.Loops
import DealPacing.Proofs.Progress.Owners
import DealPacing.Proofs.Progress.Serves
import DealPacing.Proofs.Progress.WindowSpend
import DealPacing.Proofs.Auction.Ranking
import DealPacing.Proofs.Auction.Selection
import DealPacing.Proofs.Auction.Offers
import DealPacing.Proofs.Targeting.Evaluation
import DealPacing.Proofs.Registry.Keys
import DealPacing.Proofs.Auction.Candidates
import DealPacing.Proofs.Auction.Classification
import DealPacing.Proofs.Auction.Limits
import DealPacing.Proofs.Auction.TopMatches
import DealPacing.Proofs.Auction.Judgements
import DealPacing.Proofs.Auction.Sources
import DealPacing.Proofs.Auction.Repetition
import DealPacing.Proofs.Auction.Accumulation
import DealPacing.Proofs.Auction.Arrangement
import DealPacing.Proofs.Auction.SingleBidder
import DealPacing.Proofs.Delivery.Values
import DealPacing.Proofs.Engine.Runs
import DealPacing.Proofs.Registry.Responses
import DealPacing.Proofs.Registry.Entries
import DealPacing.Proofs.Registry.Convergence
import DealPacing.Proofs.Progress.Merging
import DealPacing.Proofs.Progress.Upkeep
import DealPacing.Proofs.Progress.Overall
import DealPacing.Proofs.Progress.Recording
import DealPacing.Proofs.Progress.Batches
import DealPacing.Proofs.Engine.Lasting
import DealPacing.Proofs.Progress.ClassSpend
import DealPacing.Proofs.Progress.LifetimeSpend
import DealPacing.Proofs.Progress.WindowValues
import DealPacing.Proofs.Progress.Preview
import DealPacing.Proofs.Targeting.Keys
import DealPacing.Proofs.Targeting.Patterns
import DealPacing.Proofs.Targeting.Grammar
import DealPacing.Proofs.Targeting.Logic
import DealPacing.Proofs.Progress.Retention
import DealPacing.Proofs.Progress.Footprints
import DealPacing.Proofs.Progress.Separation
import DealPacing.Proofs.Targeting.NestedLists
import DealPacing.Proofs.Text.Casing
import DealPacing.Proofs.Targeting.Wildcards
import DealPacing.Proofs.Delivery.Draining
import DealPacing.Proofs.Time.Calendar
import DealPacing.Proofs.Time.TimeStamps
import DealPacing.Proofs.Wire.Codecs
import DealPacing.Proofs.Wire.RoundTrips
import DealPacing.Proofs.Delivery.Answers
import DealPacing.Proofs.Delivery.RepeatedClasses
import DealPacing.Proofs.Delivery.EvenDelivery
import DealPacing.Proofs.Delivery.Carrying
import DealPacing.Proofs.Registry.Succession
import DealPacing.Proofs.Progress.NewestRevision
import DealPacing.Proofs.Progress.SpendSums
import DealPacing.Proofs.Progress.AuctionTallies
import DealPacing.Proofs.Auction.Precheck
import DealPacing.Proofs.Auction.Standings
import DealPacing.Proofs.Progress.SplitReports
import DealPacing.Proofs.Progress.FirstInFirstOut
