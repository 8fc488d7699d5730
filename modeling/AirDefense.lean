import AirDefense.Field.Picture
import AirDefense.Main
import AirDefense.Proofs.Engagement.Agreement
import AirDefense.Proofs.Engagement.Exclusivity
import AirDefense.Proofs.Engagement.FirstClaim
import AirDefense.Proofs.Engagement.Leaks
import AirDefense.Proofs.Engagement.Scores
import AirDefense.Proofs.Engagement.Shutdown
import AirDefense.Proofs.Engagement.Snapshots
import AirDefense.Proofs.Engagement.Terrain
import AirDefense.Proofs.Engagement.Tracking
import AirDefense.Proofs.Field.Accesses
import AirDefense.Proofs.Field.CellMap
import AirDefense.Proofs.Field.LockOrder
import AirDefense.Proofs.Field.LockWaits
import AirDefense.Proofs.Fleet.History
import AirDefense.Proofs.Intercept.Ahead
import AirDefense.Proofs.Intercept.Crossing
import AirDefense.Proofs.Intercept.Sampling
import AirDefense.Proofs.Report
import AirDefense.Proofs.Schedule.Joining
import AirDefense.Proofs.Schedule.Periods
import AirDefense.Proofs.Session.RunLengths
import AirDefense.Proofs.Settings.Documents
import AirDefense.Proofs.Settings.GoalBand
import AirDefense.Proofs.Settings.Outcomes
import AirDefense.Proofs.Settings.Rows
import AirDefense.Proofs.Settings.Start
import AirDefense.Proofs.Slots.Handoffs
import AirDefense.Proofs.Slots.Refinement
import AirDefense.Proofs.Slots.Wakeups
import AirDefense.Proofs.Spawn.Launch
import AirDefense.Session.Options
import AirDefense.Session.Play
import AirDefense.Session.Rehearsal
