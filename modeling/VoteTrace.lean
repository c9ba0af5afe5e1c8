import VoteTrace.Main
import VoteTrace.Proofs.Earlier
import VoteTrace.Proofs.Spread.Spending
import VoteTrace.Proofs.Spread.Stage
import VoteTrace.Proofs.Spread.Unfolding
import VoteTrace.Proofs.Spread.Blocks
import VoteTrace.Proofs.Spread.Reach
import VoteTrace.Proofs.Spread.Crossings
import VoteTrace.Proofs.Spread.Lineage
import VoteTrace.Proofs.Spread.Children
import VoteTrace.Proofs.Spread.Balance
import VoteTrace.Proofs.Spread.Deletion
import VoteTrace.Proofs.Spread.Annotations
import VoteTrace.Proofs.Shares.Pairs
import VoteTrace.Proofs.Shares.Agreement
import VoteTrace.Proofs.Route.Irrelevance
import VoteTrace.Proofs.Route.RecentRows
import VoteTrace.Proofs.Chart.Markers
import VoteTrace.Proofs.Spread.Tracks
import VoteTrace.Proofs.Chart.Segments
import VoteTrace.Proofs.Dashboard.Runs
import VoteTrace.Proofs.Route.Queries
import VoteTrace.Proofs.Route.Answers
import VoteTrace.Proofs.Shares.RecentRounds
import VoteTrace.Proofs.Shares.Ranking
import VoteTrace.Proofs.Dashboard.Overlap
import VoteTrace.Proofs.Wire.RoundTrip
import VoteTrace.Proofs.Spread.FirstHops
import VoteTrace.Proofs.Route.Marks
import VoteTrace.Proofs.Shares.Histories
import VoteTrace.Proofs.Chart.Flows
import VoteTrace.Proofs.Chart.Unnamed
import VoteTrace.Proofs.Route.Hosts
import VoteTrace.Proofs.Spread.Sweep
