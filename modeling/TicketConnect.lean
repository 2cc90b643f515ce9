import TicketConnect.Bpf.Exclude
import TicketConnect.Freeze.Drain
import TicketConnect.Freeze.Events
import TicketConnect.Freeze.Exit
import TicketConnect.Freeze.Held
import TicketConnect.Freeze.Release
import TicketConnect.Injector.DryRun
import TicketConnect.Injector.Entry
import TicketConnect.Injector.Files
import TicketConnect.Injector.Footprint
import TicketConnect.Injector.Invisible
import TicketConnect.Injector.NoUpgrade
import TicketConnect.Injector.Probed
import TicketConnect.Injector.Scratch
import TicketConnect.Pool.Depth
import TicketConnect.Pool.Lifetime
import TicketConnect.System.CommandLines
import TicketConnect.System.Pooled
