import Shop.Lib.Run
import Shop.Lib.Table
import Shop.Lib.Pool
import Shop.Order.Saga
import Shop.Order.Delivery
import Shop.Order.Retry
import Shop.Product.Service
import Shop.System.Compensation
import Shop.Product.Concurrent
import Shop.Payment.Concurrent
import Shop.Product.Cache
import Shop.Product.Reserve
import Shop.Product.Editing
import Shop.Lib.Save
import Shop.Shared.Identity
import Shop.User.Service
import Shop.User.Profiles
import Shop.System.Registration
import Shop.System.Removal
import Shop.Shared.Relay
import Shop.Shared.RelayPool
import Shop.Auth.Service
import Shop.Auth.Session
import Shop.Gateway.JwtStrategy
import Shop.Gateway.Proxy
import Shop.System.Callers
import Shop.Lib.Change
import Shop.System.Status
import Shop.Payment.Settlement
import Shop.Product.Specification
import Shop.Order.Accounting
import Shop.Lib.Json
import Shop.Kafka.Consumer
import Shop.Pdf.Service
import Shop.Payment.Wallets
import Shop.Order.Details
import Shop.System.Totals
import Shop.System.Overflow
import Shop.Lib.Url
import Shop.Gateway.Hop
import Shop.Auth.Password
import Shop.Lib.Page
import Shop.Order.Queries
import Shop.System.Listing
import Shop.Lib.Decimal
import Shop.Payment.TopUp
import Shop.Kafka.Producer
import Shop.System.Keys
import Shop.Lib.Flight
import Shop.Product.Inflight
import Shop.Lib.Waits
import Shop.Payment.Waits
import Shop.Product.Waits
import Shop.Notification.Service
import Shop.System.Notices
import Shop.Lib.JsonText
import Shop.Kafka.Wire
import Shop.System.Stock
import Shop.System.Storefront
import Shop.Lib.Serial
import Shop.Product.Serial
import Shop.Payment.Serial
import Shop.Lib.Rest
import Shop.System.Work
import Shop.System.Rest
import Shop.System.Readings
