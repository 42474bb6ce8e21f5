import GpuQuota.Accounting.Scripted
import GpuQuota.Accounting.Simulated
import GpuQuota.Accounting.SystemFile
import GpuQuota.Device.Summary
import GpuQuota.Group
import GpuQuota.Interpose.EntryPoint
import GpuQuota.Interpose.LinkMap
import GpuQuota.Main
import GpuQuota.Proofs.Accounting.Balance
import GpuQuota.Proofs.Accounting.Verdict
import GpuQuota.Proofs.Accounting.Interleaving
import GpuQuota.Proofs.Accounting.Conservation
import GpuQuota.Proofs.Accounting.Reservation
import GpuQuota.Proofs.Accounting.Sheet
import GpuQuota.Proofs.Driver.Frame
import GpuQuota.Proofs.Accounting.Session
import GpuQuota.Proofs.Accounting.Overtaking
import GpuQuota.Proofs.Accounting.Alignment
import GpuQuota.Proofs.Accounting.Asked
import GpuQuota.Proofs.Accounting.Contention
import GpuQuota.Proofs.Pacing.Handoff
import GpuQuota.Proofs.Pacing.Opening
import GpuQuota.Proofs.Pacing.Readiness
import GpuQuota.Proofs.Pacing.Relay
import GpuQuota.Proofs.Pacing.Waking
import GpuQuota.Proofs.Pacing.Consumption
import GpuQuota.Proofs.Pacing.Regulating
import GpuQuota.Proofs.Pacing.BackPressure
import GpuQuota.Proofs.Pacing.SignedWords
import GpuQuota.Proofs.Pacing.Deciding
import GpuQuota.Proofs.Pacing.Bootstrap
import GpuQuota.Proofs.Pacing.Ramp
import GpuQuota.Proofs.Pacing.Restarts
import GpuQuota.Proofs.Shared.Founding
import GpuQuota.Proofs.Shared.Generations
import GpuQuota.Proofs.Shared.SoleCreator
import GpuQuota.Proofs.Accounting.Transparency
import GpuQuota.Proofs.Pacing.Launching
import GpuQuota.Proofs.Pacing.Metering
import GpuQuota.Proofs.Pacing.Retuning
import GpuQuota.Proofs.Pacing.Storage
import GpuQuota.Proofs.Pacing.Averages
import GpuQuota.Proofs.Pacing.Polling
import GpuQuota.Proofs.Interpose.Lookups
import GpuQuota.Proofs.Accounting.Attribution
import GpuQuota.Proofs.Device.Matching
import GpuQuota.Proofs.Settings.RegionNames
import GpuQuota.Proofs.Number.Rounding
import GpuQuota.Proofs.Number.SinglePrecision
import GpuQuota.Proofs.Accounting.Reports
import GpuQuota.Proofs.Text.Cutting
import GpuQuota.Proofs.Settings.Membership
import GpuQuota.Proofs.Settings.WrittenQuotas
import GpuQuota.Proofs.Driver.Layouts
import GpuQuota.Proofs.Driver.RequestNumbers
import GpuQuota.Proofs.Accounting.InlineLists
import GpuQuota.Proofs.Accounting.Bookkeeping
import GpuQuota.Proofs.Device.Agreement
import GpuQuota.Proofs.Interpose.HashRuns
import GpuQuota.Proofs.Interpose.Tables
import GpuQuota.Proofs.Interpose.FirstDefinitions
