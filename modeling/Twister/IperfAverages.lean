import Twister.IperfStats
import Twister.Run

/-! What the averages of the bandwidth test say about its samples. Beside the counters of the
program stands the log of a run: the latency samples of every second. The counters hold the sums
over the log modulo `2 ^ 64`. -/
namespace Twister

section Mean
variable {xs : List ℕ}

/-- The differences between neighbours. -/
def distances (d : ℕ → ℕ → ℕ) : List ℕ → List ℕ
  | x :: y :: xs => d x y :: distances d (y :: xs)
  | _ => []

/-- The difference as it comes out of 64 bits: one of `2 ^ 63` or more is taken for its
complement. -/
def wrappedDist (x y : ℕ) : ℕ := min (Nat.dist x y) (2 ^ 64 - Nat.dist x y)

end Mean

/-- One second of the run: the samples received in it and the last one before. -/
structure Window where
  before : Option ℕ
  samples : List ℕ

namespace Window

def last (w : Window) : Option ℕ := w.samples.getLast?.or w.before

/-- The differences between consecutive samples that end in the window. -/
def gaps (w : Window) : List ℕ := distances Nat.dist (w.before.toList ++ w.samples)

/-- The differences that are added up: the first sample of all is compared with zero. -/
def counted (w : Window) : List ℕ := distances wrappedDist (w.before.getD 0 :: w.samples)

/-- How many samples the counter has. -/
def count (w : Window) : ℕ := w.samples.length % 2 ^ 64

def latency (w : Window) : ℕ := if 1 < w.count then w.samples.sum % 2 ^ 64 / w.count else 0

/-- There is one difference for every sample, but the divisor is one less. -/
def jitter (w : Window) : ℕ :=
  if 1 < w.count then w.counted.sum % 2 ^ 64 / (w.count - 1) else 0

def add (w : Window) (x : ℕ) : Window := { w with samples := w.samples ++ [x] }

end Window

/-- The finished windows and the one that is open. -/
structure Log where
  closed : List Window
  current : Window

namespace Log

def add (log : Log) (x : ℕ) : Log := { log with current := log.current.add x }

def close (log : Log) : Log := ⟨log.closed ++ [log.current], ⟨log.current.last, []⟩⟩

end Log

namespace Iperf
namespace Averages

inductive Op
  | recv (send now : UInt64)
  | tick

structure Report where
  latency : UInt64
  jitter : UInt64

def step (clockRate : UInt64) (testStats : IperfStats) :
    Op → Outcome (IperfStats × List Report)
  | .recv send now => do
    let testStats ← calculateLatency clockRate now send testStats
    .ret (testStats, [])
  | .tick =>
    let (testStats, latency, jitter) := printPerfStats testStats
    .ret (testStats, [⟨latency, jitter⟩])

def sample (clockRate send now : UInt64) : ℕ := (now.toNat - send.toNat) / clockRate.toNat

def record (clockRate : UInt64) (log : Log) : Op → Log
  | .recv send now => log.add (sample clockRate send now)
  | .tick => log.close

def logOf (clockRate : UInt64) (os : List Op) : Log :=
  os.foldl (record clockRate) ⟨[], ⟨none, []⟩⟩

/-- The counters hold the sums over the log, each modulo `2 ^ 64`. -/
structure Represents (log : Log) (testStats : IperfStats) : Prop where
  latency : testStats.latency = UInt64.ofNat log.current.samples.sum
  jitter : testStats.jitter = UInt64.ofNat log.current.counted.sum
  prevLat : testStats.prevLat.toNat = log.current.last.getD 0
  rxPps : testStats.rxPps = UInt64.ofNat log.current.samples.length
  cumLat : testStats.cumLat = UInt64.ofNat (log.closed.map Window.latency).sum
  cumJitter : testStats.cumJitter = UInt64.ofNat (log.closed.map Window.jitter).sum
  nSamples : testStats.nSamples = UInt64.ofNat log.closed.length

section Counters
variable {clockRate : UInt64} {log : Log} {testStats : IperfStats}

/-- What is printed at a tick. -/
structure Reported (w : Window) (r : Report) : Prop where
  latency : r.latency.toNat = w.latency
  jitter : r.jitter.toNat = w.jitter

def reportOf (testStats : IperfStats) : Report :=
  ⟨(printPerfStats testStats).2.1, (printPerfStats testStats).2.2⟩

lemma reported (hrep : Represents log testStats) : Reported log.current (reportOf testStats) := by
  have hcount : testStats.rxPps.toNat = log.current.count := by
    rw [hrep.rxPps, UInt64.toNat_ofNat']
    rfl
  have hlatency : testStats.latency.toNat = log.current.samples.sum % 2 ^ 64 := by
    rw [hrep.latency, UInt64.toNat_ofNat']
  have hjitter : testStats.jitter.toNat = log.current.counted.sum % 2 ^ 64 := by
    rw [hrep.jitter, UInt64.toNat_ofNat']
  have hmany : testStats.rxPps > 1 ↔ 1 < log.current.count := by
    rw [gt_iff_lt, UInt64.lt_iff_toNat_lt, hcount]
    rfl
  by_cases h : 1 < log.current.count
  · have hle : 1 ≤ testStats.rxPps := by
      rw [UInt64.le_iff_toNat_le, hcount]
      exact h.le
    constructor
    · simp only [reportOf, printPerfStats, if_pos (hmany.mpr h), Window.latency, if_pos h,
        UInt64.toNat_div, hlatency, hcount]
    · simp only [reportOf, printPerfStats, if_pos (hmany.mpr h), Window.jitter, if_pos h,
        UInt64.toNat_div, UInt64.toNat_sub_of_le _ _ hle, hjitter, hcount]
      rfl
  · constructor
    · simp only [reportOf, printPerfStats, if_neg (mt hmany.mp h), Window.latency, if_neg h]
      rfl
    · simp only [reportOf, printPerfStats, if_neg (mt hmany.mp h), Window.jitter, if_neg h]
      rfl

end Counters

section Run
variable {clockRate : UInt64} {os : List Op}

end Run

section Summary

/-- Where `SIGINT` arrives: outside `print_perf_stats`, or in it after it has printed and done
some of its assignments. `calculate_latency` changes nothing that the handler reads. -/
inductive Interrupt
  | outside
  | inside (done : ℕ)

/-- The assignments at the end of `print_perf_stats`, in their order. -/
def assignments (latency jitter : UInt64) : List (IperfStats → IperfStats) :=
  [fun st => { st with cumLat := st.cumLat + latency },
    fun st => { st with cumJitter := st.cumJitter + jitter },
    fun st => { st with latency := 0 },
    fun st => { st with jitter := 0 },
    fun st => { st with rxPps := 0 },
    fun st => { st with nSamples := st.nSamples + 1 }]

namespace Interrupt

def ops : Interrupt → List Op
  | outside => []
  | inside _ => [.tick]

/-- The counters that the handler finds. -/
def seen (testStats : IperfStats) : Interrupt → IperfStats
  | outside => testStats
  | inside done =>
    let (_, latency, jitter) := printPerfStats testStats
    ((assignments latency jitter).take done).foldl (fun st f => f st) testStats

end Interrupt

/-- The averages as they come out lie within the data of the window. -/
def Balanced (w : Window) : Prop :=
  2 ≤ w.samples.length → (∃ x ∈ w.samples, x ≤ w.latency) ∧ (∃ x ∈ w.samples, w.latency ≤ x) ∧
    ∃ d ∈ w.gaps, w.jitter ≤ d

namespace Interrupt

/-- The windows that were reported when the signal comes. -/
def windows (log : Log) : Interrupt → List Window
  | outside => log.closed
  | inside _ => log.close.closed

/-- Those whose averages are in a sum that the given number of assignments brings up to date. -/
def summed (log : Log) (needs : ℕ) : Interrupt → List Window
  | outside => log.closed
  | inside done => if needs ≤ done then log.close.closed else log.closed

/-- The handler finds a count that is not zero, and its two sums divided by that count are no more
than some window reported. All of them are modulo `2 ^ 64`. -/
structure Timely (log : Log) (stop : Interrupt) : Prop where
  ticked : (stop.summed log 6).length % 2 ^ 64 ≠ 0
  latency : ∃ w ∈ stop.windows log, ((stop.summed log 1).map Window.latency).sum % 2 ^ 64 /
    ((stop.summed log 6).length % 2 ^ 64) ≤ w.latency
  jitter : ∃ w ∈ stop.windows log, ((stop.summed log 2).map Window.jitter).sum % 2 ^ 64 /
    ((stop.summed log 6).length % 2 ^ 64) ≤ w.jitter

end Interrupt

/-- The averages of every window lie within its data, and the signal is timely. -/
structure Steady (clockRate : UInt64) (os : List Op) (stop : Interrupt) : Prop where
  windows : ∀ w ∈ (logOf clockRate (os ++ stop.ops)).closed, Balanced w
  stop : stop.Timely (logOf clockRate os)

end Summary
end Averages
end Iperf
end Twister
