import StackArena.Workload
import StackArena.Session.Run
import StackArena.Session.Setting
import StackArena.Block.Trial
import StackArena.Proofs.Extents
import StackArena.Proofs.Hosting
import StackArena.Proofs.Shape
import StackArena.Proofs.Serving
import StackArena.Proofs.Census
import StackArena.Proofs.Occupancy
import StackArena.Proofs.Drift
import StackArena.Proofs.Cycles
import StackArena.Proofs.Scopes
import StackArena.Proofs.Poison
import StackArena.Proofs.Keeping
import StackArena.Proofs.Trees
import StackArena.Proofs.Timelines
import StackArena.Proofs.Checks
import StackArena.Proofs.Contracts
import StackArena.Proofs.Capacities
import StackArena.Proofs.Reports
import StackArena.Proofs.Aftermath
import StackArena.Proofs.Arrays
import StackArena.Proofs.Exhaustion
import StackArena.Proofs.Composing
import StackArena.Proofs.LowestFit
import StackArena.Proofs.Doubling
import StackArena.Proofs.FirstWilling
import StackArena.Proofs.Transcripts
