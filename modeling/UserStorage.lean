import UserStorage.Disk.Interference
import UserStorage.Main
import UserStorage.Program.Pool
import UserStorage.Proofs.Path.Parent
import UserStorage.Proofs.Tree.Trek
import UserStorage.Proofs.Tree.Growth
import UserStorage.Proofs.Tree.Agreement
import UserStorage.Proofs.Disk.Lookup
import UserStorage.Proofs.Disk.Vacancy
import UserStorage.Proofs.Disk.Gains
import UserStorage.Proofs.Service.HomeRoot
import UserStorage.Proofs.Storage.FreshFile
import UserStorage.Proofs.Program.History
import UserStorage.Proofs.Program.Assurance
import UserStorage.Proofs.Storage.Racing
import UserStorage.Proofs.Storage.Gaining
import UserStorage.Proofs.Storage.Tolerance
import UserStorage.Proofs.Service.Additions
import UserStorage.Proofs.Service.Rights
import UserStorage.Proofs.Service.Independence
import UserStorage.Proofs.Program.Stages
import UserStorage.Proofs.Scratch.Hosting
import UserStorage.Proofs.Scratch.Protocol
import UserStorage.Proofs.Scratch.Ledger
import UserStorage.Proofs.Scratch.Exclusive
import UserStorage.Proofs.Storage.Disturbed
import UserStorage.Proofs.Scratch.Additions
import UserStorage.Proofs.Service.Lasting
import UserStorage.Settings.Names
import UserStorage.Proofs.Settings.Layer
import UserStorage.Proofs.Settings.Sources
import UserStorage.Proofs.Settings.Resolution
import UserStorage.Proofs.Settings.Overrides
import UserStorage.Proofs.CommandLine.Refinement
import UserStorage.Proofs.Program.FirstCall
import UserStorage.Proofs.Service.Linearization
import UserStorage.Proofs.Path.Names
import UserStorage.Proofs.Disk.Names
import UserStorage.Proofs.Storage.Clearance
import UserStorage.Proofs.Storage.Answers
import UserStorage.Proofs.Storage.Conflict
import UserStorage.Proofs.Storage.Repetition
import UserStorage.Proofs.Service.Nesting
import UserStorage.Proofs.Service.FileKinds
import UserStorage.Proofs.Disk.Holding
import UserStorage.Proofs.Storage.Existing
import UserStorage.Proofs.Disk.Kindred
import UserStorage.Proofs.Path.Padding
import UserStorage.Proofs.Service.IdleSegments
import UserStorage.Proofs.Scratch.AllOrNothing
import UserStorage.Proofs.Service.Reports
