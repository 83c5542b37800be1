import GroundControl.Control
import GroundControl.Fleet
import GroundControl.Listing
import GroundControl.Simulation.Mission
import GroundControl.Simulation.Range
import GroundControl.Proofs.Desk.Order
import GroundControl.Proofs.Service.ReplyFirst
import GroundControl.Proofs.Station.Convergence
import GroundControl.Proofs.Station.Isolation
import GroundControl.Proofs.Station.Lawful
import GroundControl.Proofs.Station.Recall
import GroundControl.Proofs.Station.Cancellation
import GroundControl.Proofs.Station.Deadlines
import GroundControl.Proofs.Station.Replies
import GroundControl.Proofs.Station.Chronicle
import GroundControl.Proofs.Station.EventLog
import GroundControl.Proofs.Service.Polls
import GroundControl.Proofs.Station.Debts
import GroundControl.Proofs.Service.Stopping
import GroundControl.Proofs.Service.Signing
import GroundControl.Proofs.Control.Epochs
import GroundControl.Proofs.Service.Faultless
import GroundControl.Proofs.Control.Switchboard
import GroundControl.Proofs.Watch.Signals
import GroundControl.Proofs.TokenBucket.Conformance
import GroundControl.Proofs.Link.Acknowledged
import GroundControl.Proofs.Link.FlightState
import GroundControl.Proofs.TokenBucket.Waits
import GroundControl.Proofs.Pump.Halts
import GroundControl.Proofs.Pump.Links
import GroundControl.Proofs.Station.Halts
import GroundControl.Proofs.Station.PumpOrder
import GroundControl.Proofs.Control.FanOut
import GroundControl.Proofs.Simulation.FanOut
import GroundControl.Proofs.RoundTrip.Ranges
import GroundControl.Proofs.Station.Gauges
import GroundControl.Proofs.Station.Admission
import GroundControl.Proofs.Station.Capacity
import GroundControl.Proofs.RoundTrip.Steady
import GroundControl.Proofs.Control.Readings
import GroundControl.Proofs.TokenBucket.Sleeps
import GroundControl.Proofs.Station.Measurements
