import Twister.Outcome

/-! The counters of the bandwidth test. -/
namespace Twister

/-- The integer counters of `struct iperf_stats`. -/
structure IperfStats where
  datagramsSent : UInt64
  datagramsRecv : UInt64
  latency : UInt64
  jitter : UInt64
  rxPps : UInt64
  prevLat : UInt64
  cumLat : UInt64
  cumJitter : UInt64
  nSamples : UInt64

def noStats : IperfStats := ⟨0, 0, 0, 0, 0, 0, 0, 0, 0⟩

namespace Iperf

/-- `latency` is the time at which the packet was sent. A division by zero ends the process. -/
def calculateLatency (clockRate now latency : UInt64) (testStats : IperfStats) :
    Outcome IperfStats :=
  if clockRate = 0 then .fault
  else
    let current := (now - latency) / clockRate
    let jitter1 := (current - testStats.prevLat).toInt64
    .ret { testStats with
      latency := testStats.latency + current
      jitter := if jitter1 < 0 then testStats.jitter - jitter1.toUInt64
        else testStats.jitter + jitter1.toUInt64
      prevLat := current
      rxPps := testStats.rxPps + 1 }

/-- The two averages of the last second as they are printed, and the counters after that. -/
def printPerfStats (testStats : IperfStats) : IperfStats × UInt64 × UInt64 :=
  let latency := if testStats.rxPps > 1 then testStats.latency / testStats.rxPps else 0
  let jitter := if testStats.rxPps > 1 then testStats.jitter / (testStats.rxPps - 1) else 0
  ({ testStats with
    cumLat := testStats.cumLat + latency
    cumJitter := testStats.cumJitter + jitter
    latency := 0
    jitter := 0
    rxPps := 0
    nSamples := testStats.nSamples + 1 }, latency, jitter)

/-- The two averages of the summary. -/
def sigHandler (testStats : IperfStats) : Outcome (UInt64 × UInt64) :=
  if testStats.nSamples = 0 then .fault
  else .ret (testStats.cumLat / testStats.nSamples, testStats.cumJitter / testStats.nSamples)

end Iperf
end Twister
